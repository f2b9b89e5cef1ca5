/-
Turning a condition round is negation. What `invert` makes of the text of a condition
is the text of `Condition.inverse`, and that condition holds exactly when the first one
does not (`invert_negates`).
-/
import Concord.Proofs.Guard.Comparison

namespace Concord.Guard

open Text Code

/-! ## The condition that says the opposite -/

/-- A condition as one negated group. -/
def Condition.wrapped (c : Condition) : Condition := .clause (.term (.bang (.group c)))

def Term.inverse : Term → Condition
  | .operand o => .wrapped (.clause (.term (.operand o)))
  | .bang (.group c) => c
  | .bang t => .clause (.term t)
  | .group c => .wrapped c

def Clause.inverse : Clause → Condition
  | .term t => t.inverse
  | .comparison a op b =>
    match op.opposite? with
    | some opposite => .clause (.comparison a opposite b)
    | none => .wrapped (.clause (.comparison a op b))
  | .negation c => .clause c

def Condition.inverse : Condition → Condition
  | .clause c => c.inverse
  | .join l k r => .wrapped (.join l k r)

theorem Condition.holds_wrapped (c : Condition) (v : Valuation) : c.wrapped.holds v = !c.holds v := by
  simp [wrapped, Condition.holds, Clause.holds, Term.holds]

theorem Term.holds_inverse (t : Term) (v : Valuation) : t.inverse.holds v = !t.holds v := by
  cases t with
  | operand o => rw [Term.inverse, Condition.holds_wrapped, Condition.holds, Clause.holds]
  | group c => rw [Term.inverse, Condition.holds_wrapped, Term.holds]
  | bang t =>
    cases t <;> simp [Term.inverse, Condition.holds, Clause.holds, Term.holds]

theorem Clause.holds_inverse (c : Clause) {v : Valuation} (hv : v.Complementary) :
    c.inverse.holds v = !c.holds v := by
  cases c with
  | term t => rw [Clause.inverse, t.holds_inverse, Clause.holds]
  | negation c => simp [Clause.inverse, Condition.holds, Clause.holds]
  | comparison a op b =>
    rw [Clause.inverse]
    split
    · rename_i opposite hop
      simp only [Condition.holds, Clause.holds, hv op opposite hop]
    · rw [Condition.holds_wrapped, Condition.holds]

theorem Condition.holds_inverse (c : Condition) {v : Valuation} (hv : v.Complementary) :
    c.inverse.holds v = !c.holds v := by
  cases c with
  | clause c => exact c.holds_inverse hv
  | join l k r => exact Condition.holds_wrapped _ v

/-! ## Conditions bind no names -/

theorem Clause.found_kind : ∀ (c : Clause) (place : Nat),
    ∀ o ∈ c.found place, o.2 ≠ .connective ∧ o.2 ≠ .binding
  | .term _, _, o, ho => by simp [Clause.found] at ho
  | .comparison a op b, place, o, ho => by
    simp only [Clause.found, List.mem_singleton] at ho
    rw [ho]
    cases op <;> simp [Comparator.found]
  | .negation c, place, o, ho => c.found_kind (place + 4) o ho

theorem Condition.found_ne_binding : ∀ (c : Condition) (place : Nat), ∀ o ∈ c.found place, o.2 ≠ .binding
  | .clause c, place, o, ho => (c.found_kind place o ho).2
  | .join l k r, place, o, ho => by
    simp only [Condition.found, List.mem_append, List.mem_cons] at ho
    rcases ho with ho | rfl | ho
    · exact l.found_ne_binding place o ho
    · simp
    · exact r.found_ne_binding _ o ho

theorem Condition.isBinding_text (c : Condition) : isBinding c.text = false := by
  have hlet := (c.opens (.inl rfl)).isLet
  rw [List.append_nil] at hlet
  simp only [isBinding, c.trim_text, hlet, Bool.false_or, c.operators_text]
  rw [List.any_eq_false]
  intro o ho
  simpa using c.found_ne_binding 0 o ho

/-! ## Negations of the whole -/

theorem unnegated?_negation {t : Text} (htrim : trimStart t = t) :
    unnegated? ("not ".toList ++ t) =
      if (operators t).any (fun o => o.2 == .connective) then none else some t := by
  have hdrop := dropPrefix?_append "not ".toList t
  have hcons : "not ".toList ++ t = 'n' :: 'o' :: 't' :: ' ' :: t := rfl
  rw [hcons] at hdrop ⊢
  rw [unnegated?.eq_def]
  simp only [hdrop, htrim]
  rfl

theorem Operand.unnegated?_append (o : Operand) {rest : Text} (hrest : Follows rest) :
    unnegated? (o.text ++ rest) = none := by
  obtain ⟨c, hc, hend⟩ := o.head_end
  refine unnegated?_of_not ?_ (o.not_word (w := "not".toList) hrest (by decide))
  rw [head?_append_some hc, ne_eq, Option.some.injEq]
  rintro rfl
  exact absurd hend (by decide)

/-- A negation at the head of a join covers only what stands before the first connective. -/
theorem Term.unnegated?_join (t : Term) (k : Connective) {u : Text} (hu : Opens u) :
    unnegated? (t.text ++ (spaced k.text ++ u)) = none := by
  cases t with
  | operand o => exact o.unnegated?_append (follows_spaced _ _)
  | group c => exact unnegated?_of_not (by simp [Term.text]) rfl
  | bang t =>
    obtain ⟨c, hc, -⟩ := t.head_text
    have hne : t.text ≠ [] := by
      intro h
      rw [h] at hc
      cases hc
    have hparens : isParenthesised (t.text ++ (spaced k.text ++ u)) = false :=
      isParenthesised_append t.closed_text hne (by simp [spaced])
    have hfound : (operators (t.text ++ (spaced k.text ++ u))).isEmpty = false := by
      rw [operators_eq, t.operatorsAt_text (by decide), k.operatorsAt_text hu]
      rfl
    rw [Term.text, List.cons_append, unnegated?_bang (head?_ne_equals t.head_text _)
      (trimStart_append t.head_text _), hparens, hfound]
    rfl

theorem Clause.unnegated?_join (c : Clause) (k : Connective) {u : Text} (hu : Opens u) :
    unnegated? (c.text ++ (spaced k.text ++ u)) = none := by
  cases c with
  | term t => exact t.unnegated?_join k hu
  | comparison a op b =>
    rw [Clause.text, List.append_assoc, List.append_assoc]
    exact a.unnegated?_append (follows_spaced _ _)
  | negation c =>
    have hfound : (operators (c.text ++ (spaced k.text ++ u))).any (fun o => o.2 == .connective) = true := by
      rw [operators_eq, c.operatorsAt_text (by decide) 0 (follows_spaced _ _), k.operatorsAt_text hu]
      simp
    rw [Clause.text, List.append_assoc, unnegated?_negation (trimStart_append c.head_text _),
      hfound]
    rfl

theorem Condition.unnegated?_join : ∀ (l : Condition) (k : Connective) {u : Text}, Opens u →
    unnegated? (l.text ++ (spaced k.text ++ u)) = none
  | .clause c, k, _, hu => c.unnegated?_join k hu
  | .join l k r, k', u, _ => by
    rw [Condition.text, List.append_assoc, List.append_assoc]
    exact l.unnegated?_join k (r.opens (follows_spaced _ _))

/-! ## Turning a condition round -/

theorem Condition.invert_of_unnegated (c : Condition) {u : Text} (h : unnegated? c.text = some u) :
    invert c.text = u := by
  simp [invert, c.trim_text, c.isBinding_text, h]

/-- A condition that is neither a negation nor one comparison with an opposite is negated as a whole. -/
theorem Condition.invert_of_found (c : Condition) (h : unnegated? c.text = none)
    (hfound : ∀ place i, c.found 0 ≠ [(place, .invertible i)]) : invert c.text = negated c.text :=
  Unmarked.invert_whole ⟨c.trim_text, c.isBinding_text, h⟩ (c.operators_text ▸ hfound)

theorem Condition.negated_text (c : Condition) (h : isParenthesised c.text = false) :
    negated c.text = c.wrapped.text := by
  simp [negated, h, wrapped, Condition.text, Clause.text, Term.text]

theorem Term.trimStart_text (t : Term) : trimStart t.text = t.text := by
  have h := trimStart_append t.head_text []
  rwa [List.append_nil] at h

theorem Term.operators_text (t : Term) : operators t.text = [] := Condition.operators_text (.clause (.term t))

/-- A sign of negation is dropped, with the parentheses that follow it. -/
theorem Term.unnegated?_text (t : Term) : unnegated? ('!' :: t.text) = some (Term.bang t).inverse.text := by
  have hhead := head?_ne_equals t.head_text []
  rw [List.append_nil] at hhead
  rw [unnegated?_bang hhead t.trimStart_text, t.operators_text]
  cases t with
  | operand o =>
    have hbare : isParenthesised (Term.operand o).text = false := o.bare
    rw [hbare]
    rfl
  | bang t =>
    have hbare : isParenthesised (Term.bang t).text = false := rfl
    rw [hbare]
    rfl
  | group c =>
    have hinside : inside (Term.group c).text = c.text := by simp [inside, Term.text]
    rw [Term.text, isParenthesised_group c.closed_text, if_pos rfl, ← Term.text, hinside, c.trim_text]
    rfl

theorem Term.invert_text (t : Term) : invert t.text = t.inverse.text := by
  have hfound : ∀ place i, (Condition.clause (.term t)).found 0 ≠ [(place, .invertible i)] := by
    intro place i h
    cases h
  cases t with
  | bang t => exact Condition.invert_of_unnegated (.clause (.term (.bang t))) t.unnegated?_text
  | operand o =>
    have hnone := o.unnegated?_append (.inl rfl)
    rw [List.append_nil] at hnone
    have hinvert := Condition.invert_of_found (.clause (.term (.operand o))) hnone hfound
    exact hinvert.trans (Condition.negated_text _ o.bare)
  | group c =>
    have hnone : unnegated? (Term.group c).text = none := unnegated?_of_not (by simp [Term.text]) rfl
    have hinvert := Condition.invert_of_found (.clause (.term (.group c))) hnone hfound
    have hnegated : negated (Term.group c).text = '!' :: (Term.group c).text := by
      rw [negated, Term.text, isParenthesised_group c.closed_text, if_pos rfl]
    exact hinvert.trans hnegated

theorem Operand.isLeft (o : Operand) : IsLeft o.text where
  isOperand := o.isOperand
  ne_not h := o.unreserved (h ▸ (by decide))
  ne_let h := o.unreserved (h ▸ (by decide))

theorem invert_comparison (a : Operand) (op : Comparator) (b : Operand) :
    invert (Clause.comparison a op b).text = (Clause.comparison a op b).inverse.text := by
  have htext : (Clause.comparison a op b).text = compared a.text op b.text := rfl
  rw [htext, Clause.inverse]
  split
  · rename_i opposite hop
    exact invert_opposite a.isLeft hop b.isOperand
  · rename_i hop
    rw [invert_ordering a.isLeft hop b.isOperand, ← htext]
    simp [Condition.wrapped, Condition.text, Clause.text, Term.text]

theorem Clause.invert_text (c : Clause) : invert c.text = c.inverse.text := by
  cases c with
  | term t => exact t.invert_text
  | comparison a op b => exact invert_comparison a op b
  | negation c =>
    have hplain : (operators c.text).any (fun o => o.2 == .connective) = false := by
      rw [List.any_eq_false]
      intro o ho
      have hop : operators c.text = c.found 0 := Condition.operators_text (.clause c)
      rw [hop] at ho
      simpa using (c.found_kind 0 o ho).1
    have htrim := trimStart_append c.head_text []
    rw [List.append_nil] at htrim
    refine Condition.invert_of_unnegated (.clause (.negation c)) ?_
    rw [Condition.text, Clause.text, unnegated?_negation htrim, hplain]
    rfl

theorem Condition.invert_text (c : Condition) : invert c.text = c.inverse.text := by
  cases c with
  | clause c => exact c.invert_text
  | join l k r =>
    have hopens := r.opens (.inl rfl)
    rw [List.append_nil] at hopens
    have hfound : ∀ place i, (Condition.join l k r).found 0 ≠ [(place, .invertible i)] := by
      intro place i h
      have hmem : (0 + l.text.length + k.distance, Operator.connective) ∈ (Condition.join l k r).found 0 := by
        simp [Condition.found]
      rw [h] at hmem
      simp at hmem
    obtain ⟨x, hx, -⟩ := l.head_text
    have hne : l.text ≠ [] := by
      intro h
      rw [h] at hx
      cases hx
    have hbare : isParenthesised (Condition.join l k r).text = false :=
      isParenthesised_append l.closed_text hne (by simp [spaced])
    have hinvert := Condition.invert_of_found (.join l k r) (l.unnegated?_join k hopens) hfound
    exact hinvert.trans (Condition.negated_text _ hbare)

/-- **Turning a condition round negates it.** What `invert` gives is the text of a condition again, and
that condition holds exactly when the first one does not, however opposite operators are valued. -/
theorem invert_negates (c : Condition) : ∃ c' : Condition, invert c.text = c'.text ∧
    ∀ v : Valuation, v.Complementary → c'.holds v = !c.holds v :=
  ⟨c.inverse, c.invert_text, fun _ hv => c.holds_inverse hv⟩

/-- Operands stand for their own texts. -/
def verbatim : Valuation where
  operand o := o == "true".toList
  comparison a op b :=
    match op with
    | .equal | .identical | .single | .is | .lessEqual | .greaterEqual => a == b
    | .unequal | .unidentical | .angled | .isNot | .less | .greater => a != b
    | .isIn => startsWith b a
    | .notIn => !startsWith b a

theorem verbatim_complementary : verbatim.Complementary := by
  intro op opposite h a b
  cases op <;> simp only [Comparator.opposite?, Option.some.injEq, reduceCtorEq] at h <;>
    subst h <;> simp [verbatim, bne]

/-- `not find("a == b") <> c and (true || d in e)`, with an operator inside a literal. -/
def mixed : Condition :=
  .join
    (.clause (.negation (.comparison ⟨"find(\"a == b\")".toList, by decide, by decide, by decide⟩ .angled
      ⟨['c'], by decide, by decide, by decide⟩)))
    .andWord
    (.clause (.term (.group (.join
      (.clause (.term (.operand ⟨"true".toList, by decide, by decide, by decide⟩))) .orSign
      (.clause (.comparison ⟨['d'], by decide, by decide, by decide⟩ .isIn
        ⟨['e'], by decide, by decide, by decide⟩))))))

theorem invert_negates_mixed : verbatim.Complementary ∧
    ∃ c' : Condition, invert mixed.text = c'.text ∧ c'.holds verbatim = !mixed.holds verbatim := by
  obtain ⟨c', htext, hholds⟩ := invert_negates mixed
  exact ⟨verbatim_complementary, c', htext, hholds verbatim verbatim_complementary⟩

end Concord.Guard
