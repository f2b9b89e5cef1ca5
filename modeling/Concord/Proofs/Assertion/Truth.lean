/-
What an expression asserts when it is a comparison of two operands or a question of
absence asked of one. The first operator at the top level is the one between the
operands (`firstComparison?_sign`, `firstComparison?_word`), so both sides are read back
as they were written (`truth_comparison`).
-/
import Concord.Assertion.Expression
import Concord.Proofs.Code.Operand
import Concord.Proofs.Code.Split

namespace Concord.Assertion

open Text Code

/-! ## The first comparison -/

theorem not_begins_comparison {c : Char} (h : (isOperandChar c || isOpening c || isClosing c) = true)
    (u : Text) : comparisonOperators.any (startsWith (c :: u)) = false := by
  have hne : ∀ d ∈ " =!<>".toList, (d == c) = false := by
    intro d hd
    rw [beq_eq_false_iff_ne]
    rintro rfl
    have hnone : ∀ d ∈ " =!<>".toList, (isOperandChar d || isOpening d || isClosing d) = false := by decide
    rw [hnone d hd] at h
    cases h
  have h1 := hne ' ' (by decide)
  have h2 := hne '=' (by decide)
  have h3 := hne '!' (by decide)
  have h4 := hne '<' (by decide)
  have h5 := hne '>' (by decide)
  simp [comparisonOperators, startsWith_cons, h1, h2, h3, h4, h5]

/-- The search for a comparison passes over an operand. -/
theorem findTopWhere?_operand {a : Text} (ha : IsOperand a) (t : Text) :
    findTopWhere? (fun u => comparisonOperators.any (startsWith u)) (a ++ t) 0 =
      (firstTop? (fun u => comparisonOperators.any (startsWith u)) t
        (scanFrom (.code 0 a.getLast?) t)).map (· + a.length) := by
  rw [findTopWhere?_zero, firstTop?_closed ha.closed
    (fun cell hcell htop u => not_begins_comparison (ha.top cell hcell htop) u) (by decide), Option.or_none]

theorem firstComparison?_operand {a : Text} (ha : IsOperand a) : firstComparison? a = none := by
  have h := findTopWhere?_operand ha []
  rw [List.append_nil] at h
  simp [firstComparison?, h, firstTop?]

variable {a b w : Text}

/-- An operator of signs stands after the space. -/
theorem firstComparison?_sign (ha : IsOperand a) (hw : ∀ c ∈ w, isPlain c = true)
    (hbefore : comparisonOperators.any (startsWith (spaced w ++ b)) = false)
    (h : comparisonOperators.find? (startsWith (w ++ ' ' :: b)) = some w) :
    firstComparison? (a ++ (spaced w ++ b)) = some (a.length + 1, w) := by
  have hsplit : spaced w ++ b = ' ' :: (w ++ ' ' :: b) := by simp [spaced]
  have hnonempty : ∀ operator ∈ comparisonOperators, operator ≠ [] := by decide
  have hfits : comparisonOperators.any (startsWith (w ++ ' ' :: b)) = true := by
    rw [List.any_eq_true]
    exact ⟨w, List.mem_of_find?_eq_some h, startsWith_append w _⟩
  have hplace : findTopWhere? (fun u => comparisonOperators.any (startsWith u)) (a ++ (spaced w ++ b)) 0 =
      some (a.length + 1) := by
    rw [hsplit] at hbefore
    rw [findTopWhere?_operand ha, hsplit, firstTop?_plain (by decide) hbefore]
    obtain ⟨c, u, hcons⟩ := List.exists_cons_of_ne_nil (hnonempty w (List.mem_of_find?_eq_some h))
    have hplain : isPlain c = true := hw c (by simp [hcons])
    rw [hcons, List.cons_append] at hfits ⊢
    rw [firstTop?_here (.inl hplain) hfits, Option.map_some, Option.map_some, Nat.zero_add, Nat.add_comm]
  have hdrop : (a ++ (spaced w ++ b)).drop (a.length + 1) = w ++ ' ' :: b := by
    rw [hsplit, List.drop_append]
    simp
  simp [firstComparison?, hplace, hdrop, h]

/-- An operator of words takes the spaces around it. -/
theorem firstComparison?_word (ha : IsOperand a)
    (h : comparisonOperators.find? (startsWith (spaced w ++ b)) = some (spaced w)) :
    firstComparison? (a ++ (spaced w ++ b)) = some (a.length, spaced w) := by
  have hfits : comparisonOperators.any (startsWith (spaced w ++ b)) = true := by
    rw [List.any_eq_true]
    exact ⟨spaced w, List.mem_of_find?_eq_some h, startsWith_append _ _⟩
  have hplace : findTopWhere? (fun u => comparisonOperators.any (startsWith u)) (a ++ (spaced w ++ b)) 0 =
      some a.length := by
    rw [findTopWhere?_operand ha]
    rw [spaced, List.cons_append] at hfits ⊢
    rw [firstTop?_here (.inl (by decide)) hfits, Option.map_some, Nat.zero_add]
  simp [firstComparison?, hplace, h]

/-! ## Expressions that hold -/

/-- An expression that is neither a group nor a negation is read by its first comparison. -/
theorem truth_eq {t : Text} (htrim : trim t = t) (hbare : isParenthesised t = false)
    (hnot : startsWith t "not ".toList = false) (hbang : t.head? ≠ some '!') :
    truth t = match firstComparison? t with
      | some (place, operator) =>
        comparison (trim (t.take place)) (trim operator) (trim (t.drop (place + operator.length)))
      | none => ((predicate? t).or (patternMatch? t)).getD (on .equality t (.bool true)) := by
  have hstrip : stripParens t = t := by simp [stripParens, htrim, hbare]
  have hdrop : dropPrefix? "not ".toList t = none := dropPrefix?_eq_none_iff.2 hnot
  rw [truth]
  simp only [hstrip, hdrop]
  split
  · rename_i inner heq
    split at heq
    · simp at hbang
    · cases heq
  · rfl

/-- Both ends of a comparison are those of operands. -/
theorem trim_join (ha : IsOperand a) (hb : IsOperand b) (w : Text) :
    trim (a ++ (spaced w ++ b)) = a ++ (spaced w ++ b) := by
  refine trim_eq_self_iff.2 ⟨fun c hc => ?_, fun c hc => ?_⟩
  · obtain ⟨d, u, rfl⟩ := List.exists_cons_of_ne_nil ha.nonempty
    exact isBlank_of_isOperandEnd (ha.head_end hc)
  · have hlast := List.getLast?_eq_some_getLast hb.nonempty
    rw [getLast?_append_some (getLast?_append_some hlast), Option.some.injEq] at hc
    exact isBlank_of_isOperandEnd (hc ▸ hb.last_end hlast)

/-- What a comparison of two operands asserts, wherever its operator is found. -/
theorem truth_of_first (ha : IsOperand a) (hanot : a ≠ "not".toList) (hb : IsOperand b) {place : Nat}
    {operator : Text} (hfirst : firstComparison? (a ++ (spaced w ++ b)) = some (place, operator)) :
    truth (a ++ (spaced w ++ b)) = comparison (trim ((a ++ (spaced w ++ b)).take place)) (trim operator)
      (trim ((a ++ (spaced w ++ b)).drop (place + operator.length))) := by
  have hbare : isParenthesised (a ++ (spaced w ++ b)) = false :=
    isParenthesised_append ha.closed ha.nonempty (by simp [spaced])
  have hnot : startsWith (a ++ (spaced w ++ b)) "not ".toList = false := by
    rw [← Bool.not_eq_true]
    intro h
    exact hanot (ha.eq_of_word (w := "not".toList) (follows_spaced _ _) (by decide) h)
  have hbang : (a ++ (spaced w ++ b)).head? ≠ some '!' := by
    obtain ⟨d, u, rfl⟩ := List.exists_cons_of_ne_nil ha.nonempty
    exact ha.head_ne (by decide)
  rw [truth_eq (trim_join ha hb w) hbare hnot hbang, hfirst]

/-- The operators that are written with signs. -/
def signs : List Text :=
  ["==".toList, "!=".toList, "<".toList, "<=".toList, ">".toList, ">=".toList]

theorem isPlain_of_mem_signs (hw : w ∈ signs) : ∀ c ∈ w, isPlain c = true := by
  revert w
  decide

/-- A sign between spaces is read as itself, and not one place earlier. -/
theorem find?_sign (hw : w ∈ signs) (b : Text) :
    comparisonOperators.any (startsWith (spaced w ++ b)) = false ∧
      comparisonOperators.find? (startsWith (w ++ ' ' :: b)) = some w := by
  simp only [signs, List.mem_cons, List.not_mem_nil, or_false] at hw
  rcases hw with rfl | rfl | rfl | rfl | rfl | rfl <;> exact ⟨rfl, rfl⟩

theorem truth_sign (ha : IsOperand a) (hanot : a ≠ "not".toList) (hb : IsOperand b) (hw : w ∈ signs) :
    truth (a ++ (spaced w ++ b)) = comparison a w b := by
  obtain ⟨hbefore, h⟩ := find?_sign hw b
  have htrim : ∀ w ∈ signs, trim w = w := by decide
  have hsplit : a ++ (spaced w ++ b) = (a ++ [' ']) ++ (w ++ ' ' :: b) := by simp [spaced]
  have hlength : a.length + 1 = (a ++ [' ']).length := by simp
  have hleft : trim (a ++ [' ']) = a := trim_pad (u := []) ha.trim_self (by simp) (by decide)
  rw [truth_of_first ha hanot hb (firstComparison?_sign ha (isPlain_of_mem_signs hw) hbefore h), hsplit,
    hlength, List.take_left, ← List.length_append, ← List.append_assoc, List.drop_left, hleft,
    trim_cons_space hb.trim_self, htrim w hw]

theorem truth_word (ha : IsOperand a) (hanot : a ≠ "not".toList) (hb : IsOperand b) (htrim : trim w = w)
    (h : comparisonOperators.find? (startsWith (spaced w ++ b)) = some (spaced w)) :
    truth (a ++ (spaced w ++ b)) = comparison a w b := by
  have hoperator : trim (spaced w) = w := trim_pad (u := [' ']) htrim (by decide) (by decide)
  rw [truth_of_first ha hanot hb (firstComparison?_word ha h), List.take_left, ← List.length_append,
    ← List.append_assoc, List.drop_left, ha.trim_self, hb.trim_self, hoperator]

/-! ## Method calls at the end -/

/-- The call with which an expression ends. -/
theorem methodCall?_end (ha : Closed a) {method : String} (hm : ∀ c ∈ method.toList, isPlain c = true) :
    methodCall? (a ++ ('.' :: method.toList ++ "()".toList)) method = some (a, []) := by
  have hcut : cutLast? ('.' :: method.toList ++ ['(']) (a ++ ('.' :: method.toList ++ "()".toList)) =
      some (a, [')']) := by
    have hreverse : (a ++ ('.' :: method.toList ++ "()".toList)).reverse =
        ')' :: (('.' :: method.toList ++ ['(']).reverse ++ a.reverse) := by simp
    have hdrop : dropPrefix? ('.' :: method.toList ++ ['(']).reverse
        (')' :: (('.' :: method.toList ++ ['(']).reverse ++ a.reverse)) = none := by simp [dropPrefix?]
    rw [cutLast?, hreverse, cut?, hdrop, cut?_append]
    simp
  have hpre : Closed (a ++ '.' :: method.toList) := by
    refine ha.append (closed_of_plain fun c hc => ?_) (.inr (by simp))
    rcases List.mem_cons.1 hc with rfl | hc
    · decide
    · exact hm c hc
  have hclose := closeOf?_group hpre closed_nil (o := '(') (c := ')') rfl rfl []
  rw [List.length_nil, Nat.add_zero] at hclose
  have htext : a ++ ('.' :: method.toList ++ "()".toList) =
      (a ++ '.' :: method.toList) ++ '(' :: ([] ++ ')' :: []) := by simp
  have hplace : a.length + ('.' :: method.toList ++ ['(']).length - 1 =
      (a ++ '.' :: method.toList).length := by
    simp
  rw [methodCall?, hcut]
  simp only [Option.bind_eq_bind, Option.bind_some, hplace]
  have hlength : (a ++ '.' :: method.toList).length + 1 + 1 =
      ((a ++ '.' :: method.toList) ++ '(' :: ([] ++ ')' :: [])).length := by
    simp only [List.length_append, List.length_cons, List.length_nil]
  have hdrop : ((a ++ '.' :: method.toList) ++ '(' :: ([] ++ ')' :: [])).drop
      ((a ++ '.' :: method.toList).length + 1) = [')'] := by
    rw [List.drop_append]
    simp
  rw [htext, hclose, Option.bind_some, hlength, hdrop]
  simp

/-- No call of a method ends an expression that ends otherwise. -/
theorem methodCall?_other (ha : Closed a) {method : String} {tail : Text}
    (hinside : ∀ i < tail.length, startsWith (tail.drop i) ('.' :: method.toList ++ ['(']) = false)
    (hacross : ∀ i < method.length + 2, startsWith tail (('.' :: method.toList ++ ['(']).drop i) = false)
    (hne : tail ≠ []) : methodCall? (a ++ tail) method = none := by
  rw [methodCall?]
  cases hcut : cutLast? ('.' :: method.toList ++ ['(']) (a ++ tail) with
  | none => rfl
  | some parts =>
    obtain ⟨receiver, after⟩ := parts
    simp only [Option.bind_eq_bind, Option.bind_some]
    -- the call stands wholly before the tail, so that it closes before it
    obtain ⟨rest, hrest⟩ : ∃ rest, a = receiver ++ (('.' :: method.toList ++ ['(']) ++ rest) := by
      rcases List.append_eq_append_iff.1 (cutLast?_eq_some hcut) with ⟨v, -, hv⟩ | ⟨v, rfl, hv⟩
      · have hstarts : startsWith (tail.drop v.length) ('.' :: method.toList ++ ['(']) = true := by
          rw [hv, List.drop_left]
          exact startsWith_append _ _
        have hlt : v.length < tail.length := by rw [hv]; simp
        rw [hinside _ hlt] at hstarts
        cases hstarts
      · rcases List.append_eq_append_iff.1 hv with ⟨x, rfl, -⟩ | ⟨x, hx, htail⟩
        · exact ⟨x, rfl⟩
        · cases x with
          | nil => exact ⟨[], by rw [hx, List.append_nil, List.append_nil]⟩
          | cons c x =>
            have hlength := congrArg List.length hx
            simp only [List.cons_append, List.length_cons, List.length_append, List.length_nil,
              String.length_toList] at hlength
            have hstarts := hacross v.length (by omega)
            rw [hx, List.drop_left, htail, startsWith_append] at hstarts
            cases hstarts
    cases hclose : closeOf? (a ++ tail) (receiver.length + ('.' :: method.toList ++ ['(']).length - 1) with
    | none => rfl
    | some close =>
      have hopen : a[receiver.length + ('.' :: method.toList ++ ['(']).length - 1]? = some '(' := by
        rw [hrest]
        simp
      have hlt := closeOf?_lt ha (o := '(') rfl hopen hclose
      have htail : 0 < tail.length := List.length_pos_iff.2 hne
      have hneq : (close + 1 != (a ++ tail).length) = true := by
        simp
        omega
      rw [Option.bind_some, hneq]
      rfl

/-- An operand with a method call at its end asserts what the call asks. -/
theorem truth_call (ha : IsOperand a) {tail : Text} (htail : IsOperand tail) (hlength : 3 < tail.length)
    (hquote : tail.head? ≠ some '\'') {x : Assertion} (h : predicate? (a ++ tail) = some x) :
    truth (a ++ tail) = x := by
  have hwhole : IsOperand (a ++ tail) := ha.append htail (.inr hquote)
  have hbare : isParenthesised (a ++ tail) = false :=
    isParenthesised_append ha.closed ha.nonempty htail.nonempty
  have hnot : startsWith (a ++ tail) "not ".toList = false := by
    rw [← Bool.not_eq_true]
    intro hnot
    rw [← List.append_nil (a ++ tail)] at hnot
    have heq := hwhole.eq_of_word (w := "not".toList) (.inl rfl) (by decide) hnot
    have hlen := congrArg List.length heq
    simp at hlen
    omega
  rw [truth_eq hwhole.trim_self hbare hnot (hwhole.head_ne (by decide)), firstComparison?_operand hwhole]
  simp [h]

theorem truth_is_none (ha : IsOperand a) :
    truth (a ++ ".is_none()".toList) = on .nullCheck a (.bool true) := by
  refine truth_call ha (by decide) (by decide) (by decide) ?_
  have hcall : methodCall? (a ++ ".is_none()".toList) "is_none" = some (a, []) :=
    methodCall?_end ha.closed (by decide)
  rw [predicate?, hcall]

theorem truth_is_some (ha : IsOperand a) :
    truth (a ++ ".is_some()".toList) = on .nullCheck a (.bool false) := by
  refine truth_call ha (by decide) (by decide) (by decide) ?_
  have hother : methodCall? (a ++ ".is_some()".toList) "is_none" = none :=
    methodCall?_other ha.closed (by decide) (by decide) (by decide)
  have hcall : methodCall? (a ++ ".is_some()".toList) "is_some" = some (a, []) :=
    methodCall?_end ha.closed (by decide)
  rw [predicate?, hother, hcall]

end Concord.Assertion
