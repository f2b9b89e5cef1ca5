/-
Negated expectations. The modifiers of a matcher are read one after the other, so that of the
negations only their parity counts (`matcherFrom_linked`). Each family of matchers shows a negation in
its own way: by the kind of the assertion, by a truth value, by the opposite operator, by a value
wrapped as an opposite, or by asserting nothing at all; but each shows it
(`ofMatcher_toggled`). One negation more among the modifiers is therefore read as an assertion that says
something else, and two more change nothing (`extractJest?_negateAt`).
-/
import Concord.Proofs.Assertion.Reversal
import Concord.Proofs.Assertion.Spelling
import Concord.Proofs.Equivalence.Content

namespace Concord.Assertion

open Text Code Concord.Equivalence

/-! ## Modifiers -/

/-- A word of a chain: letters, digits and underscores. -/
def IsChainWord (w : Text) : Prop := ∀ c ∈ w, (isAlphanumeric c || c == '_') = true

instance (w : Text) : Decidable (IsChainWord w) :=
  inferInstanceAs (Decidable (∀ c ∈ w, (isAlphanumeric c || c == '_') = true))

/-- Modifiers as they are written, each after a full stop. -/
def linked (modifiers : List Text) : Text := (modifiers.map ('.' :: ·)).flatten

/-- Whether an odd number of modifiers negates. -/
def negates : List Text → Bool
  | [] => false
  | w :: modifiers => (w == "not".toList) ^^ negates modifiers

theorem negates_append (before after : List Text) :
    negates (before ++ after) = (negates before ^^ negates after) := by
  induction before with
  | nil => simp [negates]
  | cons w before ih => rw [List.cons_append, negates, ih, negates, Bool.xor_assoc]

theorem length_le_linked (modifiers : List Text) : modifiers.length ≤ (linked modifiers).length := by
  induction modifiers with
  | nil => exact Nat.le_refl 0
  | cons w modifiers ih =>
    have hcons : linked (w :: modifiers) = '.' :: (w ++ linked modifiers) := rfl
    simp only [hcons, List.length_cons, List.length_append]
    omega

theorem head?_linked (modifiers : List Text) {rest : Text} (h : rest.head? = some '.') :
    (linked modifiers ++ rest).head? = some '.' := by
  cases modifiers with
  | nil => exact h
  | cons w modifiers => rfl

/-- The word at the beginning of a chain ends where no character of a word follows. -/
theorem takeWhile_chainWord {w rest : Text} (hw : IsChainWord w)
    (hrest : ∀ c, rest.head? = some c → (isAlphanumeric c || c == '_') = false) :
    (w ++ rest).takeWhile (fun c => isAlphanumeric c || c == '_') = w := by
  rw [List.takeWhile_append_of_pos hw]
  cases rest with
  | nil => simp
  | cons c rest => rw [List.takeWhile_cons_of_neg (by simp [hrest c rfl]), List.append_nil]

/-- A modifier is taken for what it says, and the chain is read on. -/
theorem matcherFrom_modifier {w rest : Text} (hw : IsChainWord w) (hrest : rest.head? = some '.')
    (negated rejects : Bool) (fuel : Nat) :
    matcherFrom negated rejects (fuel + 1) ('.' :: (w ++ rest)) =
      matcherFrom (negated ^^ (w == "not".toList)) (rejects || w == "rejects".toList) fuel rest := by
  have hword : (w ++ rest).takeWhile (fun c => isAlphanumeric c || c == '_') = w := by
    refine takeWhile_chainWord hw fun c hc => ?_
    rw [hrest, Option.some.injEq] at hc
    exact hc ▸ (by decide)
  have hcall : (rest.head? == some '(') = false := by
    rw [hrest]
    decide
  simp only [matcherFrom, hword, List.drop_left, hcall]
  cases hnot : w == "not".toList with
  | true =>
    rw [beq_iff_eq.1 hnot]
    simp
  | false => cases w == "rejects".toList <;> simp

/-- **All modifiers of a chain**: only the parity of the negations counts, and whether one rejects. -/
theorem matcherFrom_linked {modifiers : List Text} (hwords : ∀ w ∈ modifiers, IsChainWord w) {rest : Text}
    (hrest : rest.head? = some '.') (negated rejects : Bool) (fuel : Nat) :
    matcherFrom negated rejects (fuel + modifiers.length) (linked modifiers ++ rest) =
      matcherFrom (negated ^^ negates modifiers) (rejects || modifiers.any (· == "rejects".toList)) fuel
        rest := by
  induction modifiers generalizing negated rejects with
  | nil => simp [linked, negates]
  | cons w modifiers ih =>
    have hsplit : linked (w :: modifiers) ++ rest = '.' :: (w ++ (linked modifiers ++ rest)) := by
      simp [linked]
    rw [hsplit, List.length_cons, ← Nat.add_assoc,
      matcherFrom_modifier (hwords w List.mem_cons_self) (head?_linked modifiers hrest),
      ih fun v hv => hwords v (List.mem_cons_of_mem _ hv), negates, Bool.xor_assoc, Bool.or_assoc,
      List.any_cons]

theorem matcherFrom_calling {word arguments : Text} (hword : IsChainWord word) (negated rejects : Bool)
    (fuel : Nat) :
    matcherFrom negated rejects (fuel + 1) ('.' :: calling word arguments) =
      (arguments? (calling [] arguments) 0).map fun items =>
        ⟨negated, rejects, word, argument items 0⟩ := by
  have htake : (calling word arguments).takeWhile (fun c => isAlphanumeric c || c == '_') = word := by
    refine takeWhile_chainWord hword fun c hc => ?_
    cases hc
    decide
  have hdrop : (calling word arguments).drop word.length = calling [] arguments := List.drop_left
  simp only [matcherFrom, htake, hdrop]
  rfl

/-! ## Values and their opposites -/

theorem settleFloat_ne_obj (x : Float) (members : List (String × Json)) :
    Json.settleFloat x ≠ .obj members := by
  unfold Json.settleFloat
  split <;> exact Json.noConfusion

theorem settleInt_ne_obj (n : Int) (members : List (String × Json)) : Json.settleInt n ≠ .obj members := by
  unfold Json.settleInt
  split
  · exact Json.noConfusion
  · exact settleFloat_ne_obj _ members

theorem wordDatum?_ne_obj {t : Text} {d : Datum} (h : wordDatum? t = some d) (members : List (String × Json)) :
    d.json ≠ .obj members := by
  unfold wordDatum? at h
  split at h <;> cases h <;> exact Json.noConfusion

theorem numberDatum?_ne_obj {t : Text} {d : Datum} (h : numberDatum? t = some d)
    (members : List (String × Json)) : d.json ≠ .obj members := by
  unfold numberDatum? at h
  dsimp only at h
  split at h
  · cases h
    exact settleInt_ne_obj _ members
  · split at h
    · split at h
      · obtain ⟨x, -, rfl⟩ := Option.map_eq_some_iff.1 h
        exact settleFloat_ne_obj x members
      · cases h
    · cases h

/-- No literal is an object. -/
theorem literal?_ne_obj {t : Text} {d : Datum} (h : literal? t = some d) (members : List (String × Json)) :
    d.json ≠ .obj members := by
  cases literalForm_of_literal? h with
  | word hword => exact wordDatum?_ne_obj hword members
  | number hnumber => exact numberDatum?_ne_obj hnumber members
  | owned | made | quoted => exact Json.noConfusion

theorem valueOf_ne_obj (t : Text) (members : List (String × Json)) : (valueOf t).json ≠ .obj members := by
  rw [valueOf]
  cases h : literal? t with
  | none => exact Json.noConfusion
  | some d => exact literal?_ne_obj h members

/-- The value of a text never has the content of an opposite. -/
theorem content_valueOf_ne (t : Text) (d : Datum) :
    content (valueOf t).json ≠ content (opposite d).json := by
  have hne := valueOf_ne_obj t
  generalize (valueOf t).json = j at hne
  cases j with
  | obj members => exact absurd rfl (hne members)
  | _ => simp [content, opposite]

/-! ## Assertions that differ -/

theorem apart_of_kind {a b : Assertion} (h : a.kind ≠ b.kind) : sameAssertion a b = false := by
  rw [← Bool.not_eq_true, sameAssertion_iff]
  exact fun hsaying => h (congrArg Prod.fst hsaying)

theorem apart_of_content {a b : Assertion} (h : content a.expected.json ≠ content b.expected.json) :
    sameAssertion a b = false := by
  rw [← Bool.not_eq_true, sameAssertion_iff]
  exact fun hsaying => h (congrArg (fun s => s.2.2) hsaying)

theorem apart_symm {a b : Assertion} (h : sameAssertion a b = false) : sameAssertion b a = false := by
  rw [← Bool.not_eq_true] at h ⊢
  exact fun hsame => h (sameAssertion_equivalence.symm hsame)

theorem apart_bool (kind : Kind) (target : Text) (b : Bool) :
    sameAssertion (on kind target (.bool b)) (on kind target (.bool !b)) = false :=
  apart_of_content (by cases b <;> simp [on, Datum.bool, content])

theorem apart_opposite (kind : Kind) (target t : Text) :
    sameAssertion (on kind target (valueOf t)) (on kind target (opposite (valueOf t))) = false :=
  apart_of_content (content_valueOf_ne t _)

theorem apart_membership (left right : Text) :
    sameAssertion (comparison left "in".toList right) (comparison left "not in".toList right) = false := by
  have hin : comparison left "in".toList right = on .membership right (valueOf left) := rfl
  have hnot : comparison left "not in".toList right = on .membership right (opposite (valueOf left)) := rfl
  rw [hin, hnot]
  exact apart_opposite _ _ _

/-- The operators that order two sides. -/
def orderings : List Text := ["<".toList, "<=".toList, ">".toList, ">=".toList]

theorem comparison_of_ordering {sign : Text} (h : sign ∈ orderings) (left right : Text) :
    comparison left sign right = on .ordering left (.str (String.ofList (sign ++ ' ' :: right))) := by
  simp only [orderings, List.mem_cons, List.not_mem_nil, or_false] at h
  rcases h with rfl | rfl | rfl | rfl <;> rfl

/-- Signs that begin differently order differently. -/
theorem apart_ordering {sign other : Text} (hsign : sign ∈ orderings) (hother : other ∈ orderings)
    (h : sign.head? ≠ other.head?) (left right : Text) :
    sameAssertion (comparison left sign right) (comparison left other right) = false := by
  rw [comparison_of_ordering hsign, comparison_of_ordering hother]
  refine apart_of_content fun hcontent => h ?_
  have hstring : String.ofList (sign ++ ' ' :: right) = String.ofList (other ++ ' ' :: right) := by
    simpa [on, Datum.str, content] using hcontent
  exact congrArg List.head? (List.append_cancel_right (String.ofList_injective hstring))

/-- An equality and an inequality never say the same, whatever their sides are. -/
theorem apart_equalTo (left right left' right' : Text) :
    sameAssertion (equalTo left right) (differentFrom left' right') = false := by
  unfold equalTo differentFrom
  split
  · split
    · exact apart_of_content (by simp [on, Datum.bool, content])
    · exact apart_of_kind (by simp [on])
  · split <;> split <;> exact apart_of_kind (by simp [on])

theorem apart_comparison (left right : Text) :
    sameAssertion (comparison left "==".toList right) (comparison left "!=".toList right) = false := by
  rw [comparison_of_equality (by decide), comparison_of_inequality (by decide)]
  split <;> split <;> exact apart_equalTo _ _ _ _

/-! ## Matchers -/

/-- **Every matcher shows whether it is negated**, unless it is about an error. -/
theorem apart_matcherAssertion (subject : Text) {rejects : Bool} {name argument : Text}
    (h : Matcher.throws ⟨false, rejects, name, argument⟩ = false) :
    sameAssertion (matcherAssertion subject ⟨false, rejects, name, argument⟩)
      (matcherAssertion subject ⟨true, rejects, name, argument⟩) = false := by
  simp only [Matcher.throws, Bool.or_eq_false_iff, beq_eq_false_iff_ne, ne_eq] at h
  obtain ⟨⟨hthrow, herror⟩, rfl⟩ := h
  have hname : ∀ {s : String}, String.ofList name = s → name = s.toList := by
    rintro s rfl
    exact String.toList_ofList.symm
  unfold matcherAssertion
  simp only [Bool.false_eq_true, if_false, if_true, oppositeIf]
  generalize hs : String.ofList name = s
  split
  iterate 3 · exact apart_comparison _ _
  iterate 2 · exact apart_bool _ _ true
  · exact apart_bool _ _ false
  · exact apart_bool _ _ true
  · exact apart_bool _ _ false
  iterate 3 · exact apart_membership _ _
  · exact apart_opposite _ _ _
  iterate 4 · exact apart_ordering (by decide) (by decide) (by decide) _ _
  · exact apart_opposite _ _ _
  · exact absurd (hname hs) hthrow
  · exact absurd (hname hs) herror
  · exact apart_of_kind (by simp [on])

/-- A matcher with one negation more. -/
def Matcher.toggled (m : Matcher) : Matcher := { m with negated := !m.negated }

theorem Matcher.toggled_toggled (m : Matcher) : m.toggled.toggled = m := by
  simp [toggled]

/-- Two extractions of which none asserts what the other does. -/
structure Extraction.Apart (e f : Extraction) : Prop where
  different : e ≠ f
  assertions : ∀ a ∈ e.assertions, ∀ b ∈ f.assertions, sameAssertion a b = false ∧ sameAssertion b a = false

theorem Extraction.Apart.symm {e f : Extraction} (h : e.Apart f) : f.Apart e :=
  ⟨h.different.symm, fun b hb a ha => (h.assertions a ha b hb).symm⟩

/-- A matcher and its negation, which asserts something else, or nothing. -/
theorem apart_ofMatcher (subject : Text) (rejects : Bool) (name argument : Text) :
    (Extraction.ofMatcher subject ⟨false, rejects, name, argument⟩).Apart
      (Extraction.ofMatcher subject ⟨true, rejects, name, argument⟩) := by
  have hthrows : ∀ negated, Matcher.throws ⟨negated, rejects, name, argument⟩ =
      Matcher.throws ⟨false, rejects, name, argument⟩ := fun _ => rfl
  unfold Extraction.ofMatcher
  rw [hthrows true]
  cases h : Matcher.throws ⟨false, rejects, name, argument⟩ with
  | true => exact ⟨by simp, by simp⟩
  | false =>
    have hapart := apart_matcherAssertion subject h
    simp only [Bool.false_and, Bool.false_eq_true, if_false]
    refine ⟨fun heq => ?_, ?_⟩
    · rw [(List.cons.inj (congrArg Extraction.assertions heq)).1, sameAssertion_self] at hapart
      cases hapart
    · simp only [List.mem_singleton, forall_eq]
      exact ⟨hapart, apart_symm hapart⟩

theorem ofMatcher_toggled (subject : Text) (m : Matcher) :
    (Extraction.ofMatcher subject m).Apart (Extraction.ofMatcher subject m.toggled) := by
  obtain ⟨negated, rejects, name, argument⟩ := m
  cases negated with
  | false => exact apart_ofMatcher subject rejects name argument
  | true => exact (apart_ofMatcher subject rejects name argument).symm

/-! ## Expectations in their parts -/

/-- An expectation in its parts, which are those that are read: the parenthesis after the subject is the
one that closes it, and modifiers and the name of the matcher are words. -/
structure Chained where
  subject : Text
  modifiers : List Text
  matcher : Text
  arguments : Text
  ends : closeOf? (calling "expect".toList subject) 6 = some (6 + subject.length + 1)
  words : ∀ w ∈ modifiers, IsChainWord w
  named : IsChainWord matcher

namespace Chained

/-- The expectation as it is written. -/
def text (x : Chained) : Text :=
  expecting x.subject (linked x.modifiers ++ '.' :: x.matcher) x.arguments

/-- The same expectation with a negation after the first `i` modifiers. -/
def negateAt (x : Chained) (i : Nat) : Chained :=
  { x with
    modifiers := x.modifiers.take i ++ "not".toList :: x.modifiers.drop i
    words := by
      intro w hw
      rcases List.mem_append.1 hw with hw | hw
      · exact x.words w (List.mem_of_mem_take hw)
      · rcases List.mem_cons.1 hw with rfl | hw
        · decide
        · exact x.words w (List.mem_of_mem_drop hw) }

/-- What an expectation is read as, if its arguments can be read. -/
theorem expectation?_text (x : Chained) : expectation? x.text =
    (arguments? (calling [] x.arguments) 0).map fun items => (subjectOf x.subject,
      ⟨negates x.modifiers, x.modifiers.any (· == "rejects".toList), x.matcher, argument items 0⟩) := by
  have hchain : calling (linked x.modifiers ++ '.' :: x.matcher) x.arguments =
      linked x.modifiers ++ '.' :: calling x.matcher x.arguments := by simp [calling]
  obtain ⟨fuel, hfuel⟩ : ∃ fuel, (linked x.modifiers ++ '.' :: calling x.matcher x.arguments).length + 1 =
      fuel + 1 + x.modifiers.length := by
    have hlength := length_le_linked x.modifiers
    refine ⟨(linked x.modifiers).length - x.modifiers.length + (calling x.matcher x.arguments).length + 1, ?_⟩
    rw [List.length_append, List.length_cons]
    omega
  rw [text, expectation?_expecting x.ends, hchain, hfuel, matcherFrom_linked x.words rfl,
    matcherFrom_calling x.named, Option.map_map, Bool.false_xor, Bool.false_or]
  rfl

/-- A negation among the modifiers toggles the matcher. -/
theorem expectation?_negateAt (x : Chained) (i : Nat) : expectation? (x.negateAt i).text =
    (expectation? x.text).map fun r => (r.1, r.2.toggled) := by
  have hnegates : negates (x.negateAt i).modifiers = !negates x.modifiers := by
    have hsplit := congrArg negates (List.take_append_drop i x.modifiers)
    rw [negates_append] at hsplit
    have hinserted : negates (x.negateAt i).modifiers =
        (negates (x.modifiers.take i) ^^ (true ^^ negates (x.modifiers.drop i))) := negates_append _ _
    rw [hinserted, ← hsplit]
    simp
  have hrejects : (x.negateAt i).modifiers.any (· == "rejects".toList) =
      x.modifiers.any (· == "rejects".toList) := by
    have hsplit := congrArg (List.any · (· == "rejects".toList)) (List.take_append_drop i x.modifiers)
    have hinserted : (x.negateAt i).modifiers.any (· == "rejects".toList) =
        ((x.modifiers.take i).any (· == "rejects".toList) ||
          (false || (x.modifiers.drop i).any (· == "rejects".toList))) := List.any_append
    rw [hinserted, Bool.false_or, ← List.any_append]
    exact hsplit
  rw [expectation?_text, expectation?_text, hnegates, hrejects, Option.map_map]
  rfl

end Chained

/-- **A negation always shows.** One more `not` anywhere among the modifiers of an expectation that is read
is read too, as something else: no assertion of the one says the same as one of the other. Two more, wherever
they stand, give back what was read. -/
theorem extractJest?_negateAt (x : Chained) (i j : Nat) {e : Extraction} (h : extractJest? x.text = some e) :
    (∃ f, extractJest? (x.negateAt i).text = some f ∧ f ≠ e ∧
      ∀ a ∈ e.assertions, ∀ b ∈ f.assertions, sameAssertion a b = false ∧ sameAssertion b a = false) ∧
      extractJest? ((x.negateAt i).negateAt j).text = some e := by
  rw [extractJest?_eq] at h
  obtain ⟨⟨subject, m⟩, hread, rfl⟩ := Option.map_eq_some_iff.1 h
  have hapart := ofMatcher_toggled subject m
  have honce : expectation? (x.negateAt i).text = some (subject, m.toggled) := by
    rw [x.expectation?_negateAt, hread]
    rfl
  have htwice : expectation? ((x.negateAt i).negateAt j).text = some (subject, m.toggled.toggled) := by
    rw [Chained.expectation?_negateAt, honce]
    rfl
  refine ⟨⟨Extraction.ofMatcher subject m.toggled, ?_, hapart.different.symm, hapart.assertions⟩, ?_⟩
  · rw [extractJest?_eq, honce]
    rfl
  · rw [extractJest?_eq, htwice, Matcher.toggled_toggled]
    rfl

/-- A call that must be rejected, with brackets in a literal of its subject. -/
def rejection : Chained where
  subject := "save(\")\", [1, 2])".toList
  modifiers := ["rejects".toList]
  matcher := "toThrow".toList
  arguments := "'conflict', x".toList
  ends := by decide
  words := by decide
  named := by decide

theorem extractJest?_negateAt_rejection :
    extractJest? rejection.text = some ⟨[raising "save(\")\", [1, 2])" "conflict"], []⟩ ∧
      (rejection.negateAt 1).text = "expect(save(\")\", [1, 2])).rejects.not.toThrow('conflict', x)".toList ∧
      extractJest? (rejection.negateAt 1).text ≠
        some ⟨[raising "save(\")\", [1, 2])" "conflict"], []⟩ ∧
      extractJest? ((rejection.negateAt 1).negateAt 0).text =
        some ⟨[raising "save(\")\", [1, 2])" "conflict"], []⟩ := by
  have hread : extractJest? rejection.text = some ⟨[raising "save(\")\", [1, 2])" "conflict"], []⟩ := by
    decide +kernel
  obtain ⟨⟨f, hf, hne, -⟩, htwice⟩ := extractJest?_negateAt rejection 1 0 hread
  exact ⟨hread, by decide, by rw [hf]; simpa using hne, htwice⟩

end Concord.Assertion
