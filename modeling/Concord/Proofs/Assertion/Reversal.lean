/-
Equalities with a literal on either side. A literal never counts anything: what its text begins and
ends with is not what a count begins or ends with (`counted?_of_literal?`). So a comparison with one
literal says the same of the other side, whichever side it stands on (`comparison_symmetric`).
-/
import Concord.Assertion.Expression
import Concord.Proofs.Code.Closed
import Concord.Proofs.Number.Read
import Concord.Proofs.Text.Trim

namespace Concord.Assertion

open Text Code Number

/-! ## Forms of literals -/

/-- How a trimmed text is a literal for a value. -/
inductive LiteralForm (t : Text) : Datum → Prop where
  | word {d : Datum} (h : wordDatum? t = some d) : LiteralForm t d
  | number {d : Datum} (h : numberDatum? t = some d) : LiteralForm t d
  | owned {inner e s : Text} (he : e ∈ owningEnds) (htext : t = inner ++ e)
      (h : stringLiteral? inner = some s) : LiteralForm t (.str (String.ofList s))
  | made {inner s : Text} (htext : t = "String::from(".toList ++ (inner ++ [')']))
      (h : stringLiteral? inner = some s) : LiteralForm t (.str (String.ofList s))
  | quoted {s : Text} (h : stringLiteral? t = some s) : LiteralForm t (.str (String.ofList s))

theorem literalForm_of_literal? {t : Text} {d : Datum} (h : literal? t = some d) :
    LiteralForm (trim t) d := by
  unfold literal? at h
  dsimp only at h
  split at h
  · rename_i hvalue
    cases h
    rcases Option.or_eq_some_iff.1 hvalue with hword | ⟨-, hnumber⟩
    · exact .word hword
    · exact .number hnumber
  split at h
  · rename_i inner hfound
    obtain ⟨e, he, hdrop⟩ := List.exists_of_findSome?_eq_some hfound
    obtain ⟨s, hs, rfl⟩ := Option.map_eq_some_iff.1 h
    exact .owned he (dropSuffix?_eq_some hdrop) hs
  split at h
  · rename_i inner hmade
    obtain ⟨rest, hrest, hinner⟩ := Option.bind_eq_some_iff.1 hmade
    obtain ⟨s, hs, rfl⟩ := Option.map_eq_some_iff.1 h
    refine .made ?_ hs
    rw [dropPrefix?_eq_some_iff.1 hrest, dropSuffix?_eq_some hinner]
  · obtain ⟨s, hs, rfl⟩ := Option.map_eq_some_iff.1 h
    exact .quoted hs

/-! ## String literals -/

/-- A string literal begins with a mark or a quote and ends with a quote. -/
theorem ends_of_stringLiteral? {t s : Text} (h : stringLiteral? t = some s) :
    (∃ c, (trim t).head? = some c ∧ (literalMarks.contains c || isQuote c) = true) ∧
      ∃ c, (trim t).getLast? = some c ∧ isQuote c = true := by
  unfold stringLiteral? at h
  simp only [Option.bind_eq_bind, Option.bind_eq_some_iff] at h
  obtain ⟨quote, hhead, h⟩ := h
  split at h
  · cases h
  split at h
  · cases h
  rename_i hquote hends
  have hquote : isQuote quote = true := by
    simp only [Bool.not_eq_true', Bool.not_eq_false, Bool.or_eq_true] at hquote
    simp only [isQuote, Bool.or_eq_true]
    exact hquote.elim (fun h => h.elim (fun h => .inl (.inl h)) .inr) fun h => .inl (.inr h)
  simp only [Bool.or_eq_true, decide_eq_true_eq, bne_iff_ne, ne_eq, not_or, Decidable.not_not] at hends
  refine ⟨?_, quote, ?_, hquote⟩
  · cases htext : trim t with
    | nil => simp [htext] at hhead
    | cons c u =>
      refine ⟨c, rfl, ?_⟩
      cases hmark : literalMarks.contains c with
      | true => rfl
      | false =>
        rw [htext, List.dropWhile_cons_of_neg (Bool.eq_false_iff.1 hmark), List.head?_cons,
          Option.some.injEq] at hhead
        rw [hhead, hquote, Bool.or_true]
  · obtain ⟨u, hu⟩ := List.dropWhile_suffix (l := trim t) literalMarks.contains
    rw [← hu]
    exact getLast?_append_some hends.2

/-! ## Literals count nothing -/

/-- The endings of expressions that count. -/
def countingEnds : List Text := [".len()".toList, ".length".toList, ".count()".toList, ".size()".toList]

theorem counted?_eq_none {t : Text} (hhead : (trim t).head? ≠ some 'l')
    (hends : ∀ e ∈ countingEnds, ¬ e <:+ trim t) : counted? t = none := by
  have hcall : dropPrefix? "len(".toList (trim t) = none := by
    rw [Option.eq_none_iff_forall_ne_some]
    intro u hu
    rw [dropPrefix?_eq_some_iff.1 hu] at hhead
    exact hhead rfl
  have hnone : countingEnds.findSome? (fun e => dropSuffix? e (trim t)) = none := by
    rw [List.findSome?_eq_none_iff]
    intro e he
    exact if_neg fun hsuffix => hends e he (List.isSuffixOf_iff_suffix.1 hsuffix)
  unfold counted?
  simp only [hcall, Option.bind_none]
  exact hnone

/-- The words for values. -/
def valueWords : List Text :=
  ["None".toList, "null".toList, "undefined".toList, "nil".toList, "True".toList, "true".toList,
    "False".toList, "false".toList]

theorem mem_valueWords {t : Text} {d : Datum} (h : wordDatum? t = some d) : t ∈ valueWords := by
  have hword : ∀ s : String, String.ofList t = s → t = s.toList := by
    rintro s rfl
    exact String.toList_ofList.symm
  unfold wordDatum? at h
  split at h
  iterate 8 · rename_i heq; rw [hword _ heq]; decide
  · cases h

theorem isNumberChar_of_numberDatum? {t : Text} {d : Datum} (h : numberDatum? t = some d) :
    ∀ c ∈ t, c = '_' ∨ isNumberChar c = true := by
  suffices hdigits : ∀ c ∈ t.filter (· != '_'), isNumberChar c = true by
    intro c hc
    by_cases hunderscore : c = '_'
    · exact .inl hunderscore
    · exact .inr (hdigits c (List.mem_filter.2 ⟨hc, by simpa using hunderscore⟩))
  unfold numberDatum? at h
  dsimp only at h
  split at h
  · rename_i n hint
    exact isNumberChar_of_int64? hint
  · split at h
    · split at h
      · obtain ⟨x, hx, -⟩ := Option.map_eq_some_iff.1 h
        exact isNumberChar_of_finiteFloat? hx
      · cases h
    · cases h

/-- What begins a string literal begins no count. -/
theorem head?_of_stringLiteral? {t s : Text} (h : stringLiteral? t = some s) : t.head? ≠ some 'l' := by
  intro hl
  obtain ⟨c, hc, hmark⟩ := (ends_of_stringLiteral? h).1
  rw [head?_trim (by decide) hl, Option.some.injEq] at hc
  rw [← hc] at hmark
  exact absurd hmark (by decide)

theorem counted?_of_word {t : Text} (h : trim t ∈ valueWords) : counted? t = none := by
  have hshape : ∀ w ∈ valueWords, w.head? ≠ some 'l' ∧ ∀ e ∈ countingEnds, ¬ e <:+ w := by decide
  exact counted?_eq_none (hshape _ h).1 (hshape _ h).2

/-- Every count has a letter that stands in no number. -/
theorem counted?_of_number {t : Text} (h : ∀ c ∈ trim t, c = '_' ∨ isNumberChar c = true) :
    counted? t = none := by
  have hfree : ∀ c, c ∈ trim t → c ∉ ['l', 'c', 's'] := by
    intro c hc hletter
    have hnot : ∀ c ∈ ['l', 'c', 's'], ¬ (c = '_' ∨ isNumberChar c = true) := by decide
    exact hnot c hletter (h c hc)
  refine counted?_eq_none (fun hl => hfree 'l' (List.mem_of_mem_head? hl) (by decide))
    fun e he hsuffix => ?_
  have hletter : ∀ e ∈ countingEnds, e.any ['l', 'c', 's'].contains = true := by decide
  obtain ⟨c, hc, hmem⟩ := List.any_eq_true.1 (hletter e he)
  exact hfree c (hsuffix.subset hc) (List.contains_iff_mem.1 hmem)

/-- How a text ends that counts. -/
theorem ends_of_countingEnds {t e : Text} (he : e ∈ countingEnds) (h : e <:+ t) :
    t.getLast? = some ')' ∧ t.dropLast.getLast? = some '(' ∨ t.getLast? = some 'h' := by
  obtain ⟨u, rfl⟩ := h
  have hcall : ∀ {v : Text}, v.getLast? = some ')' → v.dropLast.getLast? = some '(' →
      (u ++ v).getLast? = some ')' ∧ (u ++ v).dropLast.getLast? = some '(' := by
    intro v hlast hbefore
    have hne : v ≠ [] := by
      rintro rfl
      cases hlast
    exact ⟨getLast?_append_some hlast, by
      rw [List.dropLast_append_of_ne_nil hne, getLast?_append_some hbefore]⟩
  simp only [countingEnds, List.mem_cons, List.not_mem_nil, or_false] at he
  rcases he with rfl | rfl | rfl | rfl
  · exact .inl (hcall rfl rfl)
  · exact .inr (getLast?_append_some rfl)
  · exact .inl (hcall rfl rfl)
  · exact .inl (hcall rfl rfl)

/-- A text that ends a string literal ends with its quote. -/
theorem isQuote_of_stringLiteral? {t s : Text} (h : stringLiteral? t = some s) {c : Char}
    (hc : isBlank c = false) (hlast : t.getLast? = some c) : isQuote c = true := by
  obtain ⟨d, hd, hquote⟩ := (ends_of_stringLiteral? h).2
  rw [getLast?_trim hc hlast, Option.some.injEq] at hd
  exact hd ▸ hquote

theorem counted?_of_string {t s : Text} (h : stringLiteral? (trim t) = some s) : counted? t = none := by
  refine counted?_eq_none (head?_of_stringLiteral? h) fun e he hsuffix => ?_
  rcases ends_of_countingEnds he hsuffix with ⟨hlast, -⟩ | hlast
  · exact absurd (isQuote_of_stringLiteral? h (by decide) hlast) (by decide)
  · exact absurd (isQuote_of_stringLiteral? h (by decide) hlast) (by decide)

/-- Two endings of one text are endings of one another, and no count ends as an owned string does. -/
theorem counted?_of_owned {t inner e s : Text} (he : e ∈ owningEnds) (htext : trim t = inner ++ e)
    (h : stringLiteral? inner = some s) : counted? t = none := by
  have hapart : ∀ x ∈ countingEnds, ∀ y ∈ owningEnds, ¬ x <:+ y ∧ ¬ y <:+ x := by decide
  refine counted?_eq_none ?_ fun x hx hsuffix => ?_
  · intro hl
    cases inner with
    | nil => cases h
    | cons c inner =>
      rw [htext, List.cons_append, List.head?_cons] at hl
      exact head?_of_stringLiteral? h hl
  · rcases List.suffix_or_suffix_of_suffix hsuffix ⟨inner, htext.symm⟩ with hle | hle
    · exact (hapart x hx e he).1 hle
    · exact (hapart x hx e he).2 hle

theorem counted?_of_made {t inner s : Text} (htext : trim t = "String::from(".toList ++ (inner ++ [')']))
    (h : stringLiteral? inner = some s) : counted? t = none := by
  refine counted?_eq_none (by rw [htext]; exact fun hl => by cases hl) fun e he hsuffix => ?_
  rw [htext, ← List.append_assoc] at hsuffix
  rcases ends_of_countingEnds he hsuffix with ⟨-, hlast⟩ | hlast
  · rw [List.dropLast_concat] at hlast
    have hinner : inner.getLast? = some '(' := by
      cases hd : inner.getLast? with
      | none =>
        rw [List.getLast?_eq_none_iff.1 hd] at h
        cases h
      | some c =>
        rw [getLast?_append_some hd] at hlast
        exact hlast
    exact absurd (isQuote_of_stringLiteral? h (by decide) hinner) (by decide)
  · rw [List.getLast?_concat] at hlast
    cases hlast

/-- **A literal counts nothing.** -/
theorem counted?_of_literal? {t : Text} {d : Datum} (h : literal? t = some d) : counted? t = none := by
  cases literalForm_of_literal? h with
  | word hword => exact counted?_of_word (mem_valueWords hword)
  | number hnumber => exact counted?_of_number (isNumberChar_of_numberDatum? hnumber)
  | owned he htext hstring => exact counted?_of_owned he htext hstring
  | made htext hstring => exact counted?_of_made htext hstring
  | quoted hstring => exact counted?_of_string hstring

/-! ## Comparisons from either side -/

/-- The operators that ask whether two sides are equal. -/
def equalities : List Text := ["==".toList, "===".toList, "is".toList]

/-- The operators that ask whether two sides differ. -/
def inequalities : List Text := ["!=".toList, "!==".toList, "is not".toList]

/-- What a comparison says of an expression and the value of a literal, on whichever side they stand:
the expression is absent or not, what it counts has a number, or it has the value or another. -/
def verdict (operator expression : Text) (value : Datum) : Assertion :=
  if value = .null then on .nullCheck expression (.bool (decide (operator ∈ equalities)))
  else if operator ∈ equalities then
    (counted? expression).elim (on .equality expression value) fun collection =>
      on .countCheck collection value
  else on .inequality expression value

theorem comparison_of_equality {operator : Text} (h : operator ∈ equalities) (left right : Text) :
    comparison left operator right =
      if !isNull right && (counted? left).isNone && isReversed left right then equalTo right left
      else equalTo left right := by
  simp only [equalities, List.mem_cons, List.not_mem_nil, or_false] at h
  rcases h with rfl | rfl | rfl <;> rfl

theorem comparison_of_inequality {operator : Text} (h : operator ∈ inequalities) (left right : Text) :
    comparison left operator right =
      if !isNull right && isReversed left right then differentFrom right left
      else differentFrom left right := by
  simp only [inequalities, List.mem_cons, List.not_mem_nil, or_false] at h
  rcases h with rfl | rfl | rfl <;> rfl

theorem isNull_of_literal? {t : Text} {value : Datum} (h : literal? t = some value) :
    isNull t = decide (value = .null) := by
  rw [isNull, h, Bool.eq_iff_iff, beq_iff_eq, decide_eq_true_iff]
  constructor
  · intro hjson
    obtain ⟨json, hsettled⟩ := value
    cases hjson
    rfl
  · rintro rfl
    rfl

theorem valueOf_of_literal? {t : Text} {value : Datum} (h : literal? t = some value) :
    valueOf t = value := by
  rw [valueOf, h, Option.getD_some]

/-- An equality of which the right side is a literal. -/
theorem equalTo_literal {operator t : Text} {value : Datum} (hoperator : operator ∈ equalities)
    (h : literal? t = some value) (expression : Text) :
    equalTo expression t = verdict operator expression value := by
  rw [equalTo, verdict, isNull_of_literal? h, valueOf_of_literal? h]
  simp only [hoperator, decide_true, if_true, decide_eq_true_eq]
  split
  · rfl
  · cases counted? expression <;> rfl

theorem differentFrom_literal {operator t : Text} {value : Datum} (hoperator : operator ∈ inequalities)
    (h : literal? t = some value) (expression : Text) :
    differentFrom expression t = verdict operator expression value := by
  have hnot : operator ∉ equalities := by
    revert operator
    decide
  rw [differentFrom, verdict, isNull_of_literal? h, valueOf_of_literal? h]
  simp only [hnot, decide_false, if_false, decide_eq_true_eq]

/-- A literal on the right. -/
theorem comparison_literal {operator left right : Text} {value : Datum}
    (hoperator : operator ∈ equalities ++ inequalities) (hleft : literal? left = none)
    (hright : literal? right = some value) :
    comparison left operator right = verdict operator left value := by
  have hstays : isReversed left right = false := by
    rw [isReversed, hleft, Option.isSome_none, Bool.false_and]
  rcases List.mem_append.1 hoperator with h | h
  · rw [comparison_of_equality h, hstays, Bool.and_false, if_neg Bool.false_ne_true,
      equalTo_literal h hright]
  · rw [comparison_of_inequality h, hstays, Bool.and_false, if_neg Bool.false_ne_true,
      differentFrom_literal h hright]

/-- A literal on the left: it is no value for nothing on the right and counts nothing, so the sides
change places. -/
theorem literal_comparison {operator left right : Text} {value : Datum}
    (hoperator : operator ∈ equalities ++ inequalities) (hleft : literal? left = some value)
    (hright : literal? right = none) :
    comparison left operator right = verdict operator right value := by
  have hnull : isNull right = false := by rw [isNull, hright]
  have hturns : isReversed left right = true := by rw [isReversed, hleft, hright]; rfl
  rcases List.mem_append.1 hoperator with h | h
  · rw [comparison_of_equality h, hnull, counted?_of_literal? hleft, hturns, equalTo_literal h hleft]
    rfl
  · rw [comparison_of_inequality h, hnull, hturns, differentFrom_literal h hleft]
    rfl

/-- **On which side a literal stands does not matter.** If exactly one side is a literal, the comparison
says of the other side what it says with the sides exchanged. -/
theorem comparison_symmetric {left operator right : Text}
    (hoperator : operator ∈ equalities ++ inequalities)
    (hone : (literal? left).isSome ≠ (literal? right).isSome) :
    comparison left operator right = comparison right operator left ∧
      (∀ value, literal? left = some value → comparison left operator right = verdict operator right value) ∧
      ∀ value, literal? right = some value → comparison left operator right = verdict operator left value := by
  cases hleft : literal? left with
  | none =>
    cases hright : literal? right with
    | none => simp [hleft, hright] at hone
    | some value =>
      have hverdict := comparison_literal hoperator hleft hright
      refine ⟨by rw [hverdict, literal_comparison hoperator hright hleft], nofun, ?_⟩
      rintro _ ⟨⟩
      exact hverdict
  | some value =>
    cases hright : literal? right with
    | none =>
      have hverdict := literal_comparison hoperator hleft hright
      refine ⟨by rw [hverdict, comparison_literal hoperator hright hleft], ?_, nofun⟩
      rintro _ ⟨⟩
      exact hverdict
    | some other => simp [hleft, hright] at hone

theorem comparison_symmetric_notes :
    (literal? "2".toList).isSome ≠ (literal? " len( lead.notes )".toList).isSome ∧
      comparison "2".toList "==".toList " len( lead.notes )".toList =
        comparison " len( lead.notes )".toList "==".toList "2".toList ∧
      comparison "2".toList "==".toList " len( lead.notes )".toList =
        on .countCheck "lead.notes".toList (.int 2) := by
  have hone : (literal? "2".toList).isSome ≠ (literal? " len( lead.notes )".toList).isSome := by decide
  have hswap := comparison_symmetric (by decide : "==".toList ∈ equalities ++ inequalities) hone
  refine ⟨hone, hswap.1, ?_⟩
  rw [hswap.2.1 (.int 2) (by decide)]
  decide

end Concord.Assertion
