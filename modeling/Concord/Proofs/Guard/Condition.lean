/-
Conditions: their grammar, their texts and their truth. Negation by `!` binds to
one term, negation by `not` to one clause, and connectives join conditions; what a
condition says depends on a valuation of its operands and comparisons.
-/
import Concord.Guard
import Concord.Proofs.Code.Operand

namespace Concord.Guard

open Text Code

/-- The words that are no operands on their own. -/
def reservedWords : List Text :=
  ["not".toList, "and".toList, "or".toList, "is".toList, "in".toList, "let".toList]

/-- An operand of a condition. -/
structure Operand where
  text : Text
  isOperand : IsOperand text
  unreserved : text ∉ reservedWords
  bare : isParenthesised text = false

/-- The operators that compare. -/
inductive Comparator where
  | equal
  | unequal
  | identical
  | unidentical
  | single
  | angled
  | less
  | greater
  | lessEqual
  | greaterEqual
  | is
  | isNot
  | isIn
  | notIn
deriving DecidableEq, Repr

def Comparator.text : Comparator → Text
  | equal => "==".toList
  | unequal => "!=".toList
  | identical => "===".toList
  | unidentical => "!==".toList
  | single => "=".toList
  | angled => "<>".toList
  | less => "<".toList
  | greater => ">".toList
  | lessEqual => "<=".toList
  | greaterEqual => ">=".toList
  | is => "is".toList
  | isNot => "is not".toList
  | isIn => "in".toList
  | notIn => "not in".toList

/-- The operator that says the opposite. -/
def Comparator.opposite? : Comparator → Option Comparator
  | equal => some unequal
  | unequal => some equal
  | identical => some unidentical
  | unidentical => some identical
  | single => some unequal
  | angled => some single
  | is => some isNot
  | isNot => some is
  | isIn => some notIn
  | notIn => some isIn
  | less | greater | lessEqual | greaterEqual => none

/-- The words and signs that join conditions. -/
inductive Connective where
  | andWord
  | orWord
  | andSign
  | orSign
deriving DecidableEq, Repr

def Connective.text : Connective → Text
  | andWord => "and".toList
  | orWord => "or".toList
  | andSign => "&&".toList
  | orSign => "||".toList

def Connective.apply : Connective → Bool → Bool → Bool
  | andWord | andSign => (· && ·)
  | orWord | orSign => (· || ·)

mutual

/-- An operand, a group or a term with a sign of negation before it. -/
inductive Term where
  | operand (o : Operand)
  | bang (t : Term)
  | group (c : Condition)

/-- A part of a condition between connectives. -/
inductive Clause where
  | term (t : Term)
  | comparison (a : Operand) (op : Comparator) (b : Operand)
  | negation (c : Clause)

inductive Condition where
  | clause (c : Clause)
  | join (l : Condition) (k : Connective) (r : Condition)

end

mutual

def Term.text : Term → Text
  | .operand o => o.text
  | .bang t => '!' :: t.text
  | .group c => '(' :: (c.text ++ [')'])

def Clause.text : Clause → Text
  | .term t => t.text
  | .comparison a op b => a.text ++ (spaced op.text ++ b.text)
  | .negation c => "not ".toList ++ c.text

def Condition.text : Condition → Text
  | .clause c => c.text
  | .join l k r => l.text ++ (spaced k.text ++ r.text)

end

/-- Which operands and comparisons hold. -/
structure Valuation where
  operand : Text → Bool
  comparison : Text → Comparator → Text → Bool

/-- Opposite operators never agree: `==` and `!=`, `===` and `!==`, `=` and `!=`, `<>` and `=`, `is`
and `is not`, `in` and `not in`. -/
def Valuation.Complementary (v : Valuation) : Prop :=
  ∀ op opposite, op.opposite? = some opposite →
    ∀ a b, v.comparison a opposite b = !v.comparison a op b

mutual

def Term.holds (v : Valuation) : Term → Bool
  | .operand o => v.operand o.text
  | .bang t => !t.holds v
  | .group c => c.holds v

def Clause.holds (v : Valuation) : Clause → Bool
  | .term t => t.holds v
  | .comparison a op b => v.comparison a.text op b.text
  | .negation c => !c.holds v

def Condition.holds (v : Valuation) : Condition → Bool
  | .clause c => c.holds v
  | .join l k r => k.apply (l.holds v) (r.holds v)

end

/-! ## Texts of conditions -/

theorem Comparator.plain_text (op : Comparator) : ∀ c ∈ op.text, isPlain c = true := by
  cases op <;> decide

theorem Connective.plain_text (k : Connective) : ∀ c ∈ k.text, isPlain c = true := by
  cases k <;> decide

mutual

theorem Term.closed_text : ∀ t : Term, Closed t.text
  | .operand o => o.isOperand.closed
  | .bang t => (closed_of_plain (t := ['!']) (by decide)).append t.closed_text (.inl (by decide))
  | .group c => c.closed_text.group rfl rfl

theorem Clause.closed_text : ∀ c : Clause, Closed c.text
  | .term t => t.closed_text
  | .comparison a op b => closed_join a.isOperand.closed op.plain_text b.isOperand.closed
  | .negation c =>
    (closed_of_plain (t := "not ".toList) (by decide)).append c.closed_text (.inl (by decide))

theorem Condition.closed_text : ∀ c : Condition, Closed c.text
  | .clause c => c.closed_text
  | .join l k r => closed_join l.closed_text k.plain_text r.closed_text

end

theorem Operand.head_end (o : Operand) : ∃ c, o.text.head? = some c ∧ isOperandEnd c = true := by
  obtain ⟨c, u, hu⟩ := List.exists_cons_of_ne_nil o.isOperand.nonempty
  have hhead : o.text.head? = some c := by rw [hu]; rfl
  exact ⟨c, hhead, o.isOperand.head_end hhead⟩

theorem Operand.last_end (o : Operand) : ∃ c, o.text.getLast? = some c ∧ isOperandEnd c = true := by
  have hlast := List.getLast?_eq_some_getLast o.isOperand.nonempty
  exact ⟨_, hlast, o.isOperand.last_end hlast⟩

/-- A condition begins with an operand, a sign of negation or a parenthesis. -/
def startsCondition (c : Char) : Bool := isOperandEnd c || c == '!'

mutual

theorem Term.head_text : ∀ t : Term, ∃ c, t.text.head? = some c ∧ startsCondition c = true
  | .operand o => by
    obtain ⟨c, hc, hend⟩ := o.head_end
    exact ⟨c, hc, by simp [startsCondition, hend]⟩
  | .bang t => ⟨'!', rfl, by decide⟩
  | .group c => ⟨'(', rfl, by decide⟩

theorem Clause.head_text : ∀ c : Clause, ∃ x, c.text.head? = some x ∧ startsCondition x = true
  | .term t => t.head_text
  | .comparison a op b => by
    obtain ⟨c, hc, hend⟩ := a.head_end
    exact ⟨c, head?_append_some hc, by simp [startsCondition, hend]⟩
  | .negation c => ⟨'n', rfl, by decide⟩

theorem Condition.head_text : ∀ c : Condition, ∃ x, c.text.head? = some x ∧ startsCondition x = true
  | .clause c => c.head_text
  | .join l k r => by
    obtain ⟨x, hx, hstart⟩ := l.head_text
    exact ⟨x, head?_append_some hx, hstart⟩

end

mutual

theorem Term.last_text : ∀ t : Term, ∃ c, t.text.getLast? = some c ∧ isOperandEnd c = true
  | .operand o => o.last_end
  | .bang t => by
    obtain ⟨c, hc, hend⟩ := t.last_text
    exact ⟨c, getLast?_append_some (a := ['!']) hc, hend⟩
  | .group c => ⟨')', getLast?_append_some (a := '(' :: c.text) rfl, by decide⟩

theorem Clause.last_text : ∀ c : Clause, ∃ x, c.text.getLast? = some x ∧ isOperandEnd x = true
  | .term t => t.last_text
  | .comparison a op b => by
    obtain ⟨c, hc, hend⟩ := b.last_end
    exact ⟨c, getLast?_append_some (getLast?_append_some hc), hend⟩
  | .negation c => by
    obtain ⟨x, hx, hend⟩ := c.last_text
    exact ⟨x, getLast?_append_some hx, hend⟩

theorem Condition.last_text : ∀ c : Condition, ∃ x, c.text.getLast? = some x ∧ isOperandEnd x = true
  | .clause c => c.last_text
  | .join l k r => by
    obtain ⟨x, hx, hend⟩ := r.last_text
    exact ⟨x, getLast?_append_some (getLast?_append_some hx), hend⟩

end

theorem isBlank_of_startsCondition {c : Char} (h : startsCondition c = true) : isBlank c = false := by
  simp only [startsCondition, Bool.or_eq_true, beq_iff_eq] at h
  rcases h with h | rfl
  · exact isBlank_of_isOperandEnd h
  · decide

theorem head?_ne_equals {t : Text} (h : ∃ c, t.head? = some c ∧ startsCondition c = true) (rest : Text) :
    (t ++ rest).head? ≠ some '=' := by
  obtain ⟨c, hc, hstart⟩ := h
  rw [head?_append_some hc, ne_eq, Option.some.injEq]
  rintro rfl
  exact absurd hstart (by decide)

theorem trimStart_append {t : Text} (h : ∃ c, t.head? = some c ∧ startsCondition c = true) (rest : Text) :
    trimStart (t ++ rest) = t ++ rest := by
  obtain ⟨c, hc, hstart⟩ := h
  refine trimStart_of_head fun x hx => ?_
  rw [head?_append_some hc, Option.some.injEq] at hx
  exact hx ▸ isBlank_of_startsCondition hstart

/-- No condition begins or ends with a blank. -/
theorem trim_of_ends {t : Text} (hhead : ∃ c, t.head? = some c ∧ startsCondition c = true)
    (hlast : ∃ c, t.getLast? = some c ∧ isOperandEnd c = true) : trim t = t := by
  obtain ⟨c, hc, hstart⟩ := hhead
  obtain ⟨d, hd, hend⟩ := hlast
  refine trim_eq_self_iff.2 ⟨fun x hx => ?_, fun x hx => ?_⟩
  · rw [hc, Option.some.injEq] at hx
    exact hx ▸ isBlank_of_startsCondition hstart
  · rw [hd, Option.some.injEq] at hx
    exact hx ▸ isBlank_of_isOperandEnd hend

theorem Condition.trim_text (c : Condition) : trim c.text = c.text := trim_of_ends c.head_text c.last_text

end Concord.Guard
