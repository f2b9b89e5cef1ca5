/-
String literals as values. A text is taken for one string if it begins and ends with the same quote
and no code stands between them. Literals written next to each other have no code between them
either, so that they are taken for one string exactly if the first and the last have the same quote
(`stringLiteral?_adjoined_iff`).
-/
import Concord.Proofs.Assertion.Reversal
import Concord.Proofs.Code.Literal

namespace Concord.Assertion

open Text Code Number

/-- A trimmed text without the letters that may stand before a string literal. -/
def literalBody (t : Text) : Text := (trim t).dropWhile literalMarks.contains

/-- A literal with more text after it. -/
def Continued (t : Text) : Prop := ∃ (l : Quoted) (v : Text), v ≠ [] ∧ t = l.text ++ v

/-! ## String literals -/

theorem inside_wrapped {α : Type} (a b : α) (l : List α) : inside (a :: (l ++ [b])) = l := by
  simp [inside]

theorem isQuote_eq (q : Char) : isQuote q = (q == '"' || q == '\'' || q == '`') := by
  simp only [isQuote, Bool.or_assoc, Bool.or_comm (q == '`')]

/-- Between two quotes there is no code exactly if all is a row of literals. -/
theorem noCode_iff {q : Char} (hq : isQuote q = true) (s : Text) :
    ((inside (scan (q :: (s ++ [q])))).any fun cell => cell.depth.isSome) = false ↔
      Adjoined (q :: (s ++ [q])) := by
  have hfresh : Fresh none := by decide
  obtain ⟨hnext, hcell⟩ := Cursor.code_quote hq hfresh 0
  have hfirst : scan (q :: s) = ⟨q, none⟩ :: scanFrom ⟨0, some q, false, some q⟩ s := by
    rw [scan, scanFrom, Cursor.start, hnext, hcell]
  rw [← List.cons_append, adjoined_concat_iff hq, ← depth_scanFrom_iff hfresh 0, scan, scanFrom_append]
  change ((inside (scan (q :: s) ++ _)).any _) = false ↔ ∀ cell ∈ scan (q :: s), _
  rw [hfirst, List.cons_append, scanFrom, scanFrom, inside_wrapped]
  simp

/-- What is taken for one string is a row of literals between two equal quotes. -/
theorem stringLiteral?_eq_some_iff {t s : Text} : stringLiteral? t = some s ↔
    (∃ q, isQuote q = true ∧ literalBody t = q :: (s ++ [q])) ∧ Adjoined (literalBody t) := by
  unfold stringLiteral?
  rw [← literalBody]
  constructor
  · intro h
    simp only [Option.bind_eq_bind, Option.bind_eq_some_iff] at h
    obtain ⟨q, hhead, h⟩ := h
    split at h
    · cases h
    split at h
    · cases h
    split at h
    · cases h
    rename_i hquote hends hcode
    have hq : isQuote q = true := by
      rw [← isQuote_eq] at hquote
      simpa using hquote
    simp only [Bool.or_eq_true, decide_eq_true_eq, bne_iff_ne, ne_eq, not_or, Decidable.not_not] at hends
    obtain ⟨rest, hrest⟩ := List.head?_eq_some_iff.1 hhead
    obtain ⟨u, hu⟩ : ∃ u, rest = u ++ [q] := by
      rw [hrest] at hends
      cases rest with
      | nil => simp at hends
      | cons c rest => exact List.getLast?_eq_some_iff.1 (by simpa using hends.2)
    rw [hu] at hrest
    rw [hrest] at hcode h ⊢
    obtain rfl : u = s := by simpa [inside_wrapped] using h
    exact ⟨⟨q, hq, rfl⟩, (noCode_iff hq u).1 (by simpa using hcode)⟩
  · rintro ⟨⟨q, hq, hbody⟩, hadjoined⟩
    rw [hbody] at hadjoined ⊢
    have hcode := (noCode_iff hq s).2 hadjoined
    have hlast : (q :: (s ++ [q])).getLast? = some q := by rw [← List.cons_append, List.getLast?_concat]
    simp [← isQuote_eq, hq, hlast, hcode, inside_wrapped]

/-- A string holds its own quote bare exactly if a literal ends before its end. -/
theorem isBare_iff_continued {q : Char} (hq : isQuote q = true) (s : Text) :
    isBare q s = true ↔ Continued (q :: (s ++ [q])) := by
  constructor
  · intro h
    obtain ⟨u, v, rfl, hbare, hhangs⟩ := exists_of_isBare h
    exact ⟨⟨q, u, hq, hbare, hhangs⟩, v ++ [q], by simp, by simp [Quoted.text]⟩
  · rintro ⟨l, v, hv, htext⟩
    obtain ⟨w, c, rfl⟩ := List.eq_nil_or_concat v |>.resolve_left hv
    rw [Quoted.text, List.cons_append, List.cons.injEq] at htext
    obtain ⟨rfl, htext⟩ := htext
    have hwhole : s ++ [l.quote] = (l.content ++ l.quote :: w) ++ [c] := by
      rw [htext]
      simp
    rw [(List.append_inj' hwhole rfl).1, isBare_append l.notHangs, isBare_cons (ne_backslash_of_isQuote hq),
      beq_self_eq_true, Bool.true_or, Bool.or_true]

/-! ## Literals next to each other -/

theorem dropSuffix?_of_quote {t e : Text} {q : Char} (hq : isQuote q = true) (hlast : t.getLast? = some q)
    (he : e.getLast? = some ')') : dropSuffix? e t = none := by
  rw [Option.eq_none_iff_forall_ne_some]
  intro u hu
  rw [dropSuffix?_eq_some hu, getLast?_append_some he, Option.some.injEq] at hlast
  rw [← hlast] at hq
  cases hq

/-- A text that ends with a quote is a string or no literal at all. -/
theorem literal?_of_quote {t : Text} {q : Char} (hq : isQuote q = true) (hlast : (trim t).getLast? = some q) :
    literal? t = stringDatum? t := by
  have hword : wordDatum? (trim t) = none := by
    rw [Option.eq_none_iff_forall_ne_some]
    intro d hd
    have hends : ∀ w ∈ valueWords, (w.getLast?.any isQuote) = false := by decide
    have hend := hends _ (mem_valueWords hd)
    rw [hlast, Option.any_some, hq] at hend
    cases hend
  have hnumber : numberDatum? (trim t) = none := by
    rw [Option.eq_none_iff_forall_ne_some]
    intro d hd
    have hnot : ∀ c ∈ ['"', '`', '\''], ¬ (c = '_' ∨ isNumberChar c = true) := by decide
    refine hnot q ?_ (isNumberChar_of_numberDatum? hd q (List.mem_of_getLast? hlast))
    simpa [isQuote, or_assoc] using hq
  have howned : owningEnds.findSome? (fun e => dropSuffix? e (trim t)) = none := by
    rw [List.findSome?_eq_none_iff]
    have hends : ∀ e ∈ owningEnds, e.getLast? = some ')' := by decide
    exact fun e he => dropSuffix?_of_quote hq hlast (hends e he)
  have hmade : (dropPrefix? "String::from(".toList (trim t)).bind (dropSuffix? [')']) = none := by
    rw [Option.eq_none_iff_forall_ne_some]
    intro u hu
    obtain ⟨rest, hrest, hdrop⟩ := Option.bind_eq_some_iff.1 hu
    rw [dropPrefix?_eq_some_iff.1 hrest, dropSuffix?_eq_some hdrop, ← List.append_assoc,
      List.getLast?_concat, Option.some.injEq] at hlast
    rw [← hlast] at hq
    cases hq
  have htrim : stringDatum? (trim t) = stringDatum? t := by rw [stringDatum?, stringLiteral?, trim_trim]; rfl
  simp only [literal?, hword, hnumber, howned, hmade, Option.or_none, htrim]

/-- Two or more literals next to each other are a string if the first and the last have one quote,
and no literal at all otherwise. -/
theorem literal?_of_row {t : Text} {l m : Quoted} {ls : List Quoted}
    (h : literalBody t = row (l :: (ls ++ [m]))) :
    literal? t = if l.quote = m.quote then some (.str (String.ofList (inside (literalBody t)))) else none := by
  have hwrapped : literalBody t =
      l.quote :: ((l.content ++ l.quote :: (row ls ++ m.quote :: m.content)) ++ [m.quote]) := by
    rw [h]
    simp [row, Quoted.text]
  have hlast : (trim t).getLast? = some m.quote := by
    obtain ⟨u, hu⟩ := List.dropWhile_suffix (l := trim t) literalMarks.contains
    rw [← hu]
    refine getLast?_append_some ?_
    rw [← literalBody, hwrapped, ← List.cons_append, List.getLast?_concat]
  rw [literal?_of_quote m.isQuote hlast, stringDatum?]
  split
  next heq =>
    have hstring : stringLiteral? t = some (inside (literalBody t)) := by
      refine stringLiteral?_eq_some_iff.2 ⟨⟨l.quote, l.isQuote, ?_⟩, h ▸ adjoined_row _⟩
      rw [hwrapped, inside_wrapped, heq]
    rw [hstring, Option.map_some]
  next hne =>
    have hnone : stringLiteral? t = none := by
      rw [Option.eq_none_iff_forall_ne_some]
      intro s hs
      obtain ⟨q, -, hbody⟩ := (stringLiteral?_eq_some_iff.1 hs).1
      rw [hwrapped, List.cons.injEq] at hbody
      have hm : m.quote = q := List.singleton_inj.1 (List.append_inj' hbody.2 rfl).2
      exact hne (hbody.1.trans hm.symm)
    rw [hnone, Option.map_none]

/-- **What is taken for one string is a row of literals between two equal quotes.** It is a single
literal unless a literal ends before its end; two or more literals next to each other are taken for
one string exactly if the first and the last have the same quote. -/
theorem stringLiteral?_adjoined_iff (t s : Text) :
    (stringLiteral? t = some s ↔
      (∃ q, isQuote q = true ∧ literalBody t = q :: (s ++ [q])) ∧ Adjoined (literalBody t)) ∧
    (stringLiteral? t = some s →
      ((∃ q, isQuote q = true ∧ literalBody t = q :: (s ++ [q]) ∧ isBare q s = false) ↔
        ¬ Continued (literalBody t))) ∧
    ∀ (l m : Quoted) (ls : List Quoted), literalBody t = row (l :: (ls ++ [m])) →
      literal? t =
        if l.quote = m.quote then some (.str (String.ofList (inside (literalBody t)))) else none := by
  refine ⟨stringLiteral?_eq_some_iff, fun h => ?_, fun l m ls => literal?_of_row⟩
  obtain ⟨q, hq, hbody⟩ := (stringLiteral?_eq_some_iff.1 h).1
  have hbare := isBare_iff_continued hq s
  rw [← hbody] at hbare
  rw [← hbare, Bool.not_eq_true]
  constructor
  · rintro ⟨r, -, hbody', hfree⟩
    rw [hbody, List.cons.injEq] at hbody'
    rwa [hbody'.1]
  · exact fun hfree => ⟨q, hq, hbody, hfree⟩

/-- Two literals next to each other can be taken for one string. -/
theorem stringLiteral?_pair : stringLiteral? "\"a\"\"b\"".toList = some "a\"\"b".toList ∧
    literal? "\"a\"\"b\"".toList = some (.str "a\"\"b") := by
  decide

end Concord.Assertion
