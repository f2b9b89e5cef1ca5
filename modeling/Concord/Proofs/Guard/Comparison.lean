/-
One comparison turned round, told from its text. Whatever stands inside the literals and
brackets of its operands, the only operator outside them is the one between them
(`operators_compared`). So its opposite takes the operator's place (`invert_opposite`), or
the comparison becomes a negated group (`invert_ordering`), which is opened again
(`invert_group`); and turning a comparison round twice gives back its text (`invert_twice`).
-/
import Concord.Proofs.Guard.Operators

namespace Concord.Guard

open Text Code

/-! ## Turning round by text -/

theorem unnegated?_of_not {t : Text} (hbang : t.head? ≠ some '!')
    (hnot : startsWith t "not ".toList = false) : unnegated? t = none := by
  have hdrop : dropPrefix? "not ".toList t = none := dropPrefix?_eq_none_iff.2 hnot
  rw [unnegated?.eq_def]
  split
  · simp at hbang
  · simp at hbang
  · rw [hdrop]

theorem unnegated?_bang {t : Text} (h : t.head? ≠ some '=') (htrim : trimStart t = t) :
    unnegated? ('!' :: t) = if isParenthesised t then some (trim (inside t))
      else if (operators t).isEmpty then some t else none := by
  rw [unnegated?.eq_def]
  split
  · rename_i heq
    simp only [List.cons.injEq, true_and] at heq
    simp [heq] at h
  · rename_i heq
    simp only [List.cons.injEq, true_and] at heq
    rw [← heq, htrim]
  · rename_i hne
    exact absurd rfl (hne t)

/-- A trimmed text that neither binds names nor is a negation of the whole. -/
structure Unmarked (t : Text) : Prop where
  trimmed : trim t = t
  unbound : isBinding t = false
  unnegated : unnegated? t = none

/-- The only operator of a text is turned round in place. -/
theorem Unmarked.invert_operator {before w opposite after : Text} (h : Unmarked (before ++ (w ++ after)))
    (hfound : operators (before ++ (w ++ after)) = [(before.length, .invertible ⟨w, opposite⟩)]) :
    invert (before ++ (w ++ after)) = before ++ (opposite ++ after) := by
  simp only [invert, h.trimmed, h.unbound, h.unnegated, hfound, Bool.false_eq_true, if_false]
  rw [List.take_left, List.append_assoc, ← List.append_assoc before w, ← List.length_append, List.drop_left]

/-- A text without a single operator that has an opposite is negated as a whole. -/
theorem Unmarked.invert_whole {t : Text} (h : Unmarked t)
    (hfound : ∀ place i, operators t ≠ [(place, .invertible i)]) : invert t = negated t := by
  simp only [invert, h.trimmed, h.unbound, h.unnegated, Bool.false_eq_true, if_false]

/-- A negated group gives back what it holds. -/
theorem invert_group {t : Text} (ht : Closed t) (htrim : trim t = t) :
    invert ("!(".toList ++ t ++ [')']) = t := by
  have hsplit : "!(".toList ++ t ++ [')'] = '!' :: '(' :: (t ++ [')']) := by simp
  have hgroup : isParenthesised ('(' :: (t ++ [')'])) = true := isParenthesised_group ht
  have htrimmed : trim ('!' :: '(' :: (t ++ [')'])) = '!' :: '(' :: (t ++ [')']) := by
    refine trim_eq_self_iff.2 ⟨fun x hx => ?_, fun x hx => ?_⟩
    · rw [List.head?_cons, Option.some.injEq] at hx
      exact hx ▸ (by decide)
    · rw [← List.cons_append, ← List.cons_append, List.getLast?_concat, Option.some.injEq] at hx
      exact hx ▸ (by decide)
  have hoperators : operators ('!' :: '(' :: (t ++ [')'])) = [] := by
    rw [operators_eq, operatorsAt_plain (by decide) (leading?_bang (by simp)), operatorsAt_group ht]
    rfl
  have hbinding : isBinding ('!' :: '(' :: (t ++ [')'])) = false := by
    simp only [isBinding, htrimmed, hoperators]
    rfl
  have hinside : inside ('(' :: (t ++ [')'])) = t := by simp [inside]
  have hopened : unnegated? ('!' :: '(' :: (t ++ [')'])) = some t := by
    rw [unnegated?_bang (by simp) (trimStart_of_head (by simp; decide)), if_pos hgroup, hinside, htrim]
  rw [hsplit]
  simp only [invert, htrimmed, hbinding, hopened, Bool.false_eq_true, if_false]

/-! ## Comparisons -/

/-- Two operands with an operator between spaces. -/
def compared (a : Text) (op : Comparator) (b : Text) : Text := a ++ (spaced op.text ++ b)

/-- What may stand on the left of a comparison: `not` would negate it and `let` would bind a name. -/
structure IsLeft (a : Text) : Prop where
  isOperand : IsOperand a
  ne_not : a ≠ "not".toList
  ne_let : a ≠ "let".toList

variable {a b : Text}

/-- No operand at the end of a text is a word with a space after it. -/
theorem not_startsWith_word (hb : IsOperand b) {w : Text} (hw : ∀ c ∈ w, isPlain c = true ∧ c ≠ ' ') :
    startsWith b (w ++ [' ']) = false := by
  rw [← Bool.not_eq_true]
  intro h
  have hword : b = w := hb.eq_of_word (.inl rfl) hw (by rwa [List.append_nil])
  obtain ⟨u, hu⟩ := startsWith_iff.1 h
  have hlength := congrArg List.length hu
  rw [hword] at hlength
  simp only [List.length_append, List.length_singleton] at hlength
  omega

theorem reservedWords_plain : ∀ w ∈ reservedWords, ∀ c ∈ w, isPlain c = true ∧ c ≠ ' ' := by decide

theorem closed_compared (ha : IsOperand a) (op : Comparator) (hb : IsOperand b) : Closed (compared a op b) :=
  closed_join ha.closed op.plain_text hb.closed

/-- **The only operator of a comparison** outside literals and brackets is its own. -/
theorem operators_compared (ha : IsOperand a) (op : Comparator) (hb : IsOperand b) :
    operators (compared a op b) = [(a.length + op.found.1, op.found.2)] := by
  have hopens : Opens b := opens_of_words fun w hw => not_startsWith_word hb (reservedWords_plain w hw)
  have hnot := not_startsWith_word hb (reservedWords_plain "not".toList (by decide))
  have hfresh : Fresh (some ' ') := by decide
  have hend := operatorsAt_operand hb hfresh (a.length + (spaced op.text).length) []
  rw [List.append_nil] at hend
  rw [operators_eq, compared, operatorsAt_operand ha (by decide), op.operatorsAt_text hopens hnot,
    Nat.zero_add, hend]
  rfl

theorem trim_compared (ha : IsOperand a) (op : Comparator) (hb : IsOperand b) :
    trim (compared a op b) = compared a op b := by
  obtain ⟨c, hc⟩ := Option.isSome_iff_exists.1 (List.isSome_head?.2 ha.nonempty)
  obtain ⟨d, hd⟩ := Option.isSome_iff_exists.1 (List.getLast?_isSome.2 hb.nonempty)
  refine trim_eq_self_iff.2 ⟨fun x hx => ?_, fun x hx => ?_⟩
  · rw [compared, head?_append_some hc, Option.some.injEq] at hx
    exact hx ▸ isBlank_of_isOperandEnd (ha.head_end hc)
  · rw [compared, getLast?_append_some (getLast?_append_some hd), Option.some.injEq] at hx
    exact hx ▸ isBlank_of_isOperandEnd (hb.last_end hd)

/-- A word before the operator of a comparison is all of its left side. -/
theorem compared_not_word (ha : IsOperand a) (op : Comparator) {w : Text} (hw : w ∈ reservedWords)
    (hne : a ≠ w) : startsWith (compared a op b) (w ++ [' ']) = false := by
  rw [← Bool.not_eq_true]
  exact fun h => hne (ha.eq_of_word (follows_spaced _ _) (reservedWords_plain w hw) h)

theorem unmarked_compared (ha : IsLeft a) (op : Comparator) (hb : IsOperand b) :
    Unmarked (compared a op b) where
  trimmed := trim_compared ha.isOperand op hb
  unbound := by
    have hlet : startsWith (compared a op b) "let ".toList = false :=
      compared_not_word ha.isOperand op (w := "let".toList) (by decide) ha.ne_let
    have hkind : (op.found.2 == Operator.binding) = false := by cases op <;> rfl
    simp only [isBinding, trim_compared ha.isOperand op hb, hlet, operators_compared ha.isOperand op hb,
      List.any_cons, List.any_nil, hkind, Bool.or_false]
  unnegated := by
    refine unnegated?_of_not ?_ (compared_not_word ha.isOperand op (w := "not".toList) (by decide) ha.ne_not)
    obtain ⟨c, hc⟩ := Option.isSome_iff_exists.1 (List.isSome_head?.2 ha.isOperand.nonempty)
    rw [compared, head?_append_some hc, ← hc]
    exact ha.isOperand.head_ne (by decide)

/-- An operator with an opposite is replaced by it. -/
theorem invert_opposite (ha : IsLeft a) {op opposite : Comparator} (h : op.opposite? = some opposite)
    (hb : IsOperand b) : invert (compared a op b) = compared a opposite b := by
  have hmarks := unmarked_compared ha op hb
  have hfound := operators_compared ha.isOperand op hb
  -- the spaces around a sign are not part of it
  have hsign : ∀ w, a ++ (spaced w ++ b) = (a ++ [' ']) ++ (w ++ ' ' :: b) := by simp [spaced]
  have hplace : (a ++ [' ']).length = a.length + 1 := by simp
  cases op with
  | less | greater | lessEqual | greaterEqual => cases h
  | is | isNot | isIn | notIn =>
    cases h
    exact hmarks.invert_operator hfound
  | equal | unequal | identical | unidentical | single | angled =>
    cases h
    rw [compared, hsign] at hmarks hfound ⊢
    rw [compared, hsign]
    exact hmarks.invert_operator (hplace ▸ hfound)

/-- A comparison whose operator has no opposite becomes a negated group. -/
theorem invert_ordering (ha : IsLeft a) {op : Comparator} (h : op.opposite? = none) (hb : IsOperand b) :
    invert (compared a op b) = "!(".toList ++ compared a op b ++ [')'] := by
  have hbare : isParenthesised (compared a op b) = false :=
    isParenthesised_append ha.isOperand.closed ha.isOperand.nonempty (by simp [spaced])
  have hfound : ∀ place i, operators (compared a op b) ≠ [(place, .invertible i)] := by
    intro place i hone
    rw [operators_compared ha.isOperand op hb] at hone
    cases op <;> cases h <;> cases hone
  rw [(unmarked_compared ha op hb).invert_whole hfound, negated, hbare]
  rfl

/-! ## Turning round twice -/

/-- The operators that come in pairs of opposites. -/
def Comparator.pairs : List (Comparator × Comparator) :=
  [(equal, unequal), (identical, unidentical), (is, isNot), (isIn, notIn)]

/-- Two operators of which each is the opposite of the other. -/
def Comparator.Paired (op opposite : Comparator) : Prop := (op, opposite) ∈ pairs ∨ (opposite, op) ∈ pairs

theorem Comparator.Paired.symm {op opposite : Comparator} (h : Paired op opposite) : Paired opposite op :=
  Or.symm h

theorem Comparator.Paired.opposite {op opposite : Comparator} (h : Paired op opposite) :
    op.opposite? = some opposite := by
  simp only [Paired, pairs, List.mem_cons, Prod.mk.injEq, List.not_mem_nil, or_false] at h
  rcases h with h | h <;> rcases h with ⟨rfl, rfl⟩ | ⟨rfl, rfl⟩ | ⟨rfl, rfl⟩ | ⟨rfl, rfl⟩ <;> rfl

/-- The operators that order their operands. -/
def Comparator.ordering : List Comparator := [less, greater, lessEqual, greaterEqual]

/-- **Turning a comparison round twice gives back its text.** A paired operator becomes the other of its pair,
a comparison by order becomes a negated group, and from either the comparison is read again. -/
theorem invert_twice (ha : IsLeft a) (hb : IsOperand b) :
    (∀ op opposite : Comparator, op.Paired opposite →
      invert (compared a op b) = compared a opposite b ∧ invert (invert (compared a op b)) = compared a op b) ∧
    ∀ op ∈ Comparator.ordering, invert (compared a op b) = "!(".toList ++ compared a op b ++ [')'] ∧
      invert (invert (compared a op b)) = compared a op b := by
  refine ⟨fun op opposite hpair => ?_, fun op hop => ?_⟩
  · have hfirst := invert_opposite ha hpair.opposite hb
    exact ⟨hfirst, by rw [hfirst, invert_opposite ha hpair.symm.opposite hb]⟩
  · have hnone : op.opposite? = none := by
      simp only [Comparator.ordering, List.mem_cons, List.not_mem_nil, or_false] at hop
      rcases hop with rfl | rfl | rfl | rfl <;> rfl
    have hfirst := invert_ordering ha hnone hb
    refine ⟨hfirst, ?_⟩
    rw [hfirst, invert_group (closed_compared ha.isOperand op hb) (trim_compared ha.isOperand op hb)]

/-- `is("x != y") is not` ends with a word that makes a longer operator of the one before it. -/
theorem invert_twice_words :
    IsLeft "is(\"x != y\")".toList ∧ IsOperand "not".toList ∧ Comparator.is.Paired .isNot ∧
      Comparator.lessEqual ∈ Comparator.ordering ∧
      invert "is(\"x != y\") is not".toList = "is(\"x != y\") is not not".toList ∧
      invert (invert "is(\"x != y\") is not".toList) = "is(\"x != y\") is not".toList ∧
      invert "is(\"x != y\") <= not".toList = "!(is(\"x != y\") <= not)".toList ∧
      invert (invert "is(\"x != y\") <= not".toList) = "is(\"x != y\") <= not".toList := by
  have ha : IsLeft "is(\"x != y\")".toList := ⟨by decide, by decide, by decide⟩
  have hb : IsOperand "not".toList := by decide
  have hpair : Comparator.is.Paired .isNot := .inl (by decide)
  have horder : Comparator.lessEqual ∈ Comparator.ordering := by decide
  obtain ⟨hpaired, hordered⟩ := invert_twice ha hb
  obtain ⟨hword, hwords⟩ := hpaired .is .isNot hpair
  obtain ⟨hsign, hsigns⟩ := hordered .lessEqual horder
  exact ⟨ha, hb, hpair, horder, hword, hwords, hsign, hsigns⟩

end Concord.Guard
