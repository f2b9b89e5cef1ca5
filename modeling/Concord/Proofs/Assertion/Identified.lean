/-
What a statement of a test can say. It is read as an assertion on one of several routes: it says
at most one thing, never a transition, which takes two statements to see, and a statement of
an equality does nothing besides (`extract?_says`). An assertion about an error takes what
identifies the error from another place on each route: an argument, a word of its own, or the name
of a matcher. An argument is never blank, because parts between separators are kept only if
something is left of them (`trimmed_of_mem_splitTop`); so all routes identify their error, but for a
matcher without a name (`extract?_identified`).
-/
import Concord.Assertion.Extract
import Concord.Proofs.Text.Trim

namespace Concord.Assertion

open Text Code

/-- If an assertion is about an error, something that is not blank identifies the error. -/
def Identified (a : Assertion) : Prop :=
  a.kind = .raises → ∃ error, a.errorIdentifier? = some error ∧ allBlank error.toList = false

theorem identified_of_kind {a : Assertion} (h : a.kind ≠ .raises) : Identified a :=
  fun hraises => absurd hraises h

theorem identified_raising (target : String) {error : String} (h : allBlank error.toList = false) :
    Identified (raising target error) :=
  fun _ => ⟨error, by simp [errorIdentifier?, raising, Datum.str, h], h⟩

/-- What one statement can say: something about one moment, and of an error by a text that is not blank,
unless that is `excused`. -/
structure Said (excused : Prop) (a : Assertion) : Prop where
  momentary : a.kind ≠ .stateTransition
  names : a.kind = .raises → ∃ error, a.expected = .str error ∧ (allBlank error.toList = false ∨ excused)

theorem Said.identified {excused : Prop} {a : Assertion} (h : Said excused a) (hexcused : ¬ excused) :
    Identified a := by
  intro hkind
  obtain ⟨error, hexpected, hblank⟩ := h.names hkind
  have hblank := hblank.resolve_right hexcused
  exact ⟨error, by simp [errorIdentifier?, hkind, hexpected, Datum.str, hblank], hblank⟩

variable {excused : Prop}

theorem said_on {kind : Kind} (h : kind ≠ .stateTransition ∧ kind ≠ .raises) (target : Text) (expected : Datum) :
    Said excused (on kind target expected) := ⟨h.1, fun hraises => absurd hraises h.2⟩

theorem said_raising (target : String) {error : String} (h : allBlank error.toList = false ∨ excused) :
    Said excused (raising target error) := ⟨by simp [raising], fun _ => ⟨error, rfl, h⟩⟩

theorem Said.withMessage {a : Assertion} (h : Said excused a) (message : Option Text) :
    Said excused (withMessage a message) := by
  cases message with
  | none => exact h
  | some m => exact ⟨h.momentary, h.names⟩

/-! ## Expressions -/

theorem said_equalTo (left right : Text) : Said excused (equalTo left right) := by
  unfold equalTo
  split
  · exact said_on (by decide) _ _
  · split <;> exact said_on (by decide) _ _

theorem said_differentFrom (left right : Text) : Said excused (differentFrom left right) := by
  unfold differentFrom
  split <;> exact said_on (by decide) _ _

theorem said_comparison (left operator right : Text) :
    Said excused (comparison left operator right) := by
  unfold comparison
  split
  iterate 3 · split <;> exact said_equalTo _ _
  iterate 3 · split <;> exact said_differentFrom _ _
  all_goals exact said_on (by decide) _ _

theorem said_falsity (expression : Text) : Said excused (falsity expression) := by
  unfold falsity
  dsimp only
  split
  · split
    · exact said_comparison _ _ _
    · split
      · exact said_comparison _ _ _
      · exact said_on (by decide) _ _
  · exact said_on (by decide) _ _

theorem said_predicate? {t : Text} {a : Assertion} (h : predicate? t = some a) : Said excused a := by
  unfold predicate? at h
  split at h
  · cases h
    exact said_on (by decide) _ _
  split at h
  · cases h
    exact said_on (by decide) _ _
  split at h
  · cases h
    exact said_on (by decide) _ _
  split at h
  · cases h
    exact said_raising _ (.inl (by decide))
  split at h
  · cases h
    exact said_on (by decide) _ _
  · cases h

theorem said_patternMatch? {t : Text} {a : Assertion} (h : patternMatch? t = some a) :
    Said excused a := by
  obtain ⟨call, -, hcall⟩ := List.exists_of_findSome?_eq_some h
  split at hcall
  · split at hcall
    · cases hcall
      exact said_on (by decide) _ _
    · cases hcall
  · cases hcall

theorem said_truth (expression : Text) : Said excused (truth expression) := by
  unfold truth
  dsimp only
  split
  · exact said_falsity _
  split
  · exact said_falsity _
  split
  · exact said_comparison _ _ _
  · cases hfound : (predicate? (stripParens expression)).or (patternMatch? (stripParens expression)) with
    | none => exact said_on (by decide) _ _
    | some a =>
      rcases Option.or_eq_some_iff.1 hfound with hp | ⟨-, hp⟩
      · exact said_predicate? hp
      · exact said_patternMatch? hp

/-! ## Arguments -/

theorem allBlank_trim {t : Text} (h : trim t ≠ []) : allBlank (trim t) = false := by
  have hlast := List.getLast?_eq_some_getLast h
  rw [← Bool.not_eq_true, allBlank, List.all_eq_true]
  intro hall
  exact absurd (hall _ (List.getLast_mem h)) (by simp [last_dropEndWhile hlast])

/-- A part between separators is trimmed and not blank. -/
theorem trimmed_of_mem_splitTop {sep : Char} {t part : Text} (h : part ∈ splitTop sep t) :
    trim part = part ∧ allBlank part = false := by
  simp only [splitTop, List.mem_filter, List.mem_map, Bool.not_eq_true', List.isEmpty_eq_false_iff] at h
  obtain ⟨⟨piece, -, rfl⟩, hne⟩ := h
  exact ⟨trim_trim piece, allBlank_trim hne⟩

theorem trimmed_of_arguments? {t : Text} {place : Nat} {arguments : List Text}
    (h : arguments? t place = some arguments) {a : Text} (ha : a ∈ arguments) :
    trim a = a ∧ allBlank a = false := by
  obtain ⟨close, -, rfl⟩ := Option.map_eq_some_iff.1 h
  exact trimmed_of_mem_splitTop ha

/-! ## Assert statements, error blocks and assertion methods -/

/-- What a statement can say as a whole: at most one thing, and an equality is all that it is for. -/
def Extraction.Says (excused : Prop) (e : Extraction) : Prop :=
  e.assertions = [] ∨ ∃ a, e.assertions = [a] ∧ Said excused a ∧ (a.kind = .equality → e.actions = [])

theorem Extraction.says_one {a : Assertion} (h : Said excused a) : Extraction.Says excused ⟨[a], []⟩ :=
  .inr ⟨a, rfl, h, fun _ => rfl⟩

theorem says_raisingBlock? {t : Text} {e : Extraction} (h : raisingBlock? t = some e) : e.Says excused := by
  simp only [raisingBlock?, Option.bind_eq_bind, Option.bind_eq_some_iff, Option.pure_def,
    Option.some.injEq] at h
  obtain ⟨clause, -, call, -, arguments, harguments, error, herror, rfl⟩ := h
  obtain ⟨htrim, hblank⟩ := trimmed_of_arguments? harguments (List.mem_of_head? herror)
  -- what stands in the block is done, but all that is asserted is the error
  refine .inr ⟨_, rfl, said_raising _ (.inl ?_), fun hkind => by cases hkind⟩
  rwa [String.toList_ofList, htrim]

theorem said_raisingCall? {t : Text} {a : Assertion} (h : raisingCall? t = some a) : Said excused a := by
  unfold raisingCall? at h
  split at h
  · split at h
    · rename_i harguments
      cases h
      have hblank := (trimmed_of_arguments? harguments (List.mem_cons_self)).2
      exact said_raising _ (.inl (by rwa [String.toList_ofList]))
    · cases h
  · cases h

/-- Of the assertion methods only one is about an error, which its first argument names. -/
theorem said_methodAssertion? {name : String} {arguments : List Text}
    (hblank : ∀ a ∈ arguments, allBlank a = false) {a : Assertion} {messageAt : Option Nat}
    (h : methodAssertion? name arguments = some (a, messageAt)) : Said excused a := by
  unfold methodAssertion? at h
  dsimp only at h
  split at h
  iterate 10 · cases h; exact said_comparison _ _ _
  · cases h
    exact said_truth _
  · cases h
    exact said_falsity _
  iterate 8 · cases h; exact said_comparison _ _ _
  · cases h
    exact said_on (by decide) _ _
  · split at h
    · rename_i hlength
      cases h
      obtain ⟨error, rest, rfl⟩ := List.exists_cons_of_length_pos (Nat.lt_of_succ_lt hlength)
      exact said_raising _ (.inl (by rw [String.toList_ofList]; exact hblank error List.mem_cons_self))
    · cases h
  · cases h

theorem said_methodCallAssertion? {t : Text} {a : Assertion}
    (h : methodCallAssertion? t = some a) : Said excused a := by
  simp only [methodCallAssertion?, Option.bind_eq_bind, Option.bind_eq_some_iff] at h
  obtain ⟨rest, -, place, -, h⟩ := h
  split at h
  · cases h
  simp only [Option.pure_def, Option.bind_eq_some_iff, Option.some.injEq, Prod.exists] at h
  obtain ⟨arguments, harguments, assertion, messageAt, hassertion, rfl⟩ := h
  have hblank := fun x hx => (trimmed_of_arguments? harguments (a := x) hx).2
  exact (said_methodAssertion? hblank hassertion).withMessage _

theorem says_extractPytest? {t : Text} {e : Extraction} (h : extractPytest? t = some e) : e.Says excused := by
  unfold extractPytest? at h
  dsimp only at h
  split at h
  · cases h
    exact Extraction.says_one ((said_truth _).withMessage _)
  split at h
  · exact says_raisingBlock? h
  · obtain ⟨assertion, hassertion, rfl⟩ := Option.map_eq_some_iff.1 h
    rcases Option.or_eq_some_iff.1 hassertion with hcall | ⟨-, hcall⟩
    · exact Extraction.says_one (said_raisingCall? hcall)
    · exact Extraction.says_one (said_methodCallAssertion? hcall)

/-! ## Assertion macros -/

theorem said_macroAssertion (name : String) (arguments : List Text) :
    Said excused (macroAssertion name arguments).1 := by
  unfold macroAssertion
  dsimp only
  split <;> dsimp only
  · exact said_comparison _ _ _
  · exact said_comparison _ _ _
  · exact said_on (by decide) _ _
  · exact said_truth _

theorem says_extractCargo? {t : Text} {e : Extraction} (h : extractCargo? t = some e) : e.Says excused := by
  simp only [extractCargo?, Option.bind_eq_bind, Option.bind_eq_some_iff, Option.pure_def,
    Option.some.injEq] at h
  obtain ⟨name, -, arguments, -, rfl⟩ := h
  exact Extraction.says_one ((said_macroAssertion name arguments).withMessage _)

/-! ## Expectations with matchers -/

/-- The subject and the matcher of an expectation. -/
def expectation? (statement : Text) : Option (Text × Matcher) := do
  let t := withoutSemicolon statement
  let t := trim ((dropPrefix? "await ".toList t).getD t)
  if !startsWith t "expect(".toList then none
  let close ← closeOf? t 6
  let chain := t.drop (close + 1)
  let m ← matcherFrom false false (chain.length + 1) chain
  return (subjectOf ((t.take close).drop 7), m)

/-- What an expectation asserts; that nothing is thrown is only done. -/
def Extraction.ofMatcher (subject : Text) (m : Matcher) : Extraction :=
  if m.throws && m.negated then ⟨[], [subject]⟩ else ⟨[matcherAssertion subject m], []⟩

theorem extractJest?_eq (statement : Text) : extractJest? statement =
    (expectation? statement).map fun x => Extraction.ofMatcher x.1 x.2 := by
  unfold extractJest? expectation?
  dsimp only
  split
  · rfl
  simp only [Option.bind_eq_bind, Option.pure_def, Option.map_bind, Function.comp_def, Option.map_some]
  refine congrArg _ (funext fun close => congrArg _ (funext fun m => ?_))
  unfold Extraction.ofMatcher
  split <;> rfl

/-- The name of a matcher is made of letters, digits and underscores. -/
theorem not_blank_of_matcherFrom {negated rejects : Bool} {fuel : Nat} {t : Text} {m : Matcher}
    (h : matcherFrom negated rejects fuel t = some m) {c : Char} (hc : c ∈ m.name) : isBlank c = false := by
  induction fuel generalizing negated rejects t with
  | zero => cases h
  | succ fuel ih =>
    unfold matcherFrom at h
    split at h
    · dsimp only at h
      split at h
      · obtain ⟨arguments, -, rfl⟩ := Option.map_eq_some_iff.1 h
        have hword := List.all_eq_true.1 List.all_takeWhile c hc
        rcases Bool.or_eq_true_iff.1 hword with hletter | hunderscore
        · exact isBlank_of_isAlphanumeric hletter
        · rw [beq_iff_eq.1 hunderscore]
          decide
      · split at h
        · exact ih h
        · split at h <;> exact ih h
    · cases h

theorem allBlank_errorOf (argument : Text) : allBlank (errorOf argument).toList = false := by
  unfold errorOf
  dsimp only
  split
  · decide
  · rename_i hblank
    simpa using hblank

/-- A matcher identifies its error by its argument or, if it rejects, by its own name. -/
theorem said_matcherAssertion (subject : Text) {m : Matcher} (hname : allBlank m.name = false ∨ excused) :
    Said excused (matcherAssertion subject m) := by
  unfold matcherAssertion
  dsimp only
  split
  iterate 3 · exact said_comparison _ _ _
  iterate 5 · exact said_on (by decide) _ _
  iterate 3 · exact said_comparison _ _ _
  · exact said_on (by decide) _ _
  iterate 4 · exact said_comparison _ _ _
  · exact said_on (by decide) _ _
  iterate 2 · exact said_raising _ (.inl (allBlank_errorOf _))
  · split
    · exact said_raising _ (by rwa [String.toList_ofList])
    · refine said_on ?_ _ _
      split <;> decide

/-- Whether a statement is no expectation or one by a matcher that has a name. -/
def NamesMatcher (statement : Text) : Prop :=
  ∀ subject m, expectation? statement = some (subject, m) → m.name ≠ []

instance (statement : Text) : Decidable (NamesMatcher statement) :=
  decidable_of_iff (∀ x ∈ (expectation? statement).toList, x.2.name ≠ []) (by simp [NamesMatcher])

/-- A matcher that has a name has one that is not blank. -/
theorem allBlank_matcher {t subject : Text} {m : Matcher} (hm : expectation? t = some (subject, m))
    (hne : m.name ≠ []) : allBlank m.name = false := by
  obtain ⟨c, rest, hcons⟩ := List.exists_cons_of_ne_nil hne
  have hc : isBlank c = false := by
    simp only [expectation?, Option.bind_eq_bind] at hm
    split at hm
    · cases hm
    simp only [Option.pure_def, Option.bind_eq_some_iff, Option.some.injEq, Prod.mk.injEq] at hm
    obtain ⟨close, -, m', hfrom, -, rfl⟩ := hm
    exact not_blank_of_matcherFrom hfrom (by rw [hcons]; exact List.mem_cons_self)
  simp [hcons, allBlank, hc]

theorem says_extractJest? {t : Text} {e : Extraction} (h : extractJest? t = some e) :
    e.Says (¬ NamesMatcher t) := by
  rw [extractJest?_eq] at h
  obtain ⟨⟨subject, m⟩, hm, rfl⟩ := Option.map_eq_some_iff.1 h
  have hname : allBlank m.name = false ∨ ¬ NamesMatcher t := by
    by_cases hnil : m.name = []
    · exact .inr fun hnamed => hnamed subject m hm hnil
    · exact .inl (allBlank_matcher hm hnil)
  unfold Extraction.ofMatcher
  split
  · exact .inl rfl
  · exact Extraction.says_one (said_matcherAssertion subject hname)

/-! ## All frameworks -/

/-- **On every route a statement says at most one thing**, of one moment, and an equality is all that it is
for; of an error only a matcher without a name says too little. -/
theorem extract?_says {framework : Framework} {t : Text} {e : Extraction} (h : extract? framework t = some e) :
    e.Says (¬ NamesMatcher t) := by
  cases framework with
  | pytest => exact says_extractPytest? h
  | cargo => exact says_extractCargo? h
  | jest => exact says_extractJest? h
  | any =>
    rcases Option.or_eq_some_iff.1 h with h | ⟨-, h⟩
    · rcases Option.or_eq_some_iff.1 h with h | ⟨-, h⟩
      · exact says_extractPytest? h
      · exact says_extractCargo? h
    · exact says_extractJest? h

/-- **On every route an assertion about an error identifies it**, if expectations name their matchers. -/
theorem extract?_identified {framework : Framework} {t : Text} {e : Extraction} (hnamed : NamesMatcher t)
    (h : extract? framework t = some e) : ∀ a ∈ e.assertions, Identified a := by
  intro a ha
  rcases extract?_says h with hnone | ⟨b, hb, hsaid, -⟩
  · rw [hnone] at ha
    cases ha
  · rw [hb, List.mem_singleton] at ha
    exact ha ▸ hsaid.identified (not_not_intro hnamed)

end Concord.Assertion
