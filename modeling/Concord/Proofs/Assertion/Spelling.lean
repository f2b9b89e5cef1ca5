/-
One expectation in the words of several test frameworks. Each way to write it is read
as the same assertion (`extract_spellings`), whatever stands in its operands.
-/
import Concord.Proofs.Assertion.Identified
import Concord.Proofs.Assertion.Truth

namespace Concord.Assertion

open Text Code

/-- What a test compares: an operand, and not the word `not`. -/
structure Operand where
  text : Text
  isOperand : IsOperand text
  notNot : text ≠ "not".toList

/-- How a test may compare two operands. -/
inductive Relation where
  | equal
  | unequal
  | less
  | lessEqual
  | greater
  | greaterEqual
deriving DecidableEq, Repr

/-- What a test expects of one operand or of two. -/
inductive Expectation where
  | related (r : Relation) (a b : Operand)
  | null (a : Operand)
  | notNull (a : Operand)
  | member (a b : Operand)
  | notMember (a b : Operand)

/-! ## Ways to write -/

/-- An assert statement about `a operator b`. -/
def asserting (a operator b : Text) : Text := "assert ".toList ++ (a ++ (spaced operator ++ b))

/-- A call with its arguments as one text. -/
def calling (function arguments : Text) : Text := function ++ '(' :: (arguments ++ [')'])

/-- Two arguments. -/
def both (a b : Text) : Text := a ++ ',' :: ' ' :: b

/-- An expectation of `a` with the words of its matcher and the argument of that. -/
def expecting (a matcher argument : Text) : Text :=
  calling (calling "expect".toList a ++ matcher) argument

/-- A matcher with the modifier that negates it, or without. -/
def modified (negated : Bool) (word : Text) : Text := (if negated then ".not.".toList else ['.']) ++ word

namespace Relation

def sign : Relation → Text
  | equal => "==".toList
  | unequal => "!=".toList
  | less => "<".toList
  | lessEqual => "<=".toList
  | greater => ">".toList
  | greaterEqual => ">=".toList

/-- The assertion method of a test case. -/
def method : Relation → Text
  | equal => "assertEqual".toList
  | unequal => "assertNotEqual".toList
  | less => "assertLess".toList
  | lessEqual => "assertLessEqual".toList
  | greater => "assertGreater".toList
  | greaterEqual => "assertGreaterEqual".toList

/-- Only equality and its opposite have macros of their own. -/
def invocation (r : Relation) (a b : Text) : Text :=
  match r with
  | equal => calling "assert_eq!".toList (both a b)
  | unequal => calling "assert_ne!".toList (both a b)
  | less | lessEqual | greater | greaterEqual => calling "assert!".toList (a ++ (spaced r.sign ++ b))

def matcherName : Relation → Text
  | equal | unequal => "toBe".toList
  | less => "toBeLessThan".toList
  | lessEqual => "toBeLessThanOrEqual".toList
  | greater => "toBeGreaterThan".toList
  | greaterEqual => "toBeGreaterThanOrEqual".toList

/-- Only the opposite of equality is written with a modifier. -/
def matcher (r : Relation) : Text := modified (r == unequal) r.matcherName

end Relation

/-- The ways to write an expectation, with the frameworks that read them. -/
def Expectation.spellings : Expectation → List (Framework × Text)
  | .related r a b =>
    [(.pytest, asserting a.text r.sign b.text),
      (.pytest, calling ("self.".toList ++ r.method) (both a.text b.text)),
      (.cargo, r.invocation a.text b.text),
      (.jest, expecting a.text r.matcher b.text)]
  | .null a =>
    [(.pytest, asserting a.text "is".toList "None".toList),
      (.pytest, calling "self.assertIsNone".toList a.text),
      (.cargo, calling "assert!".toList (a.text ++ ".is_none()".toList)),
      (.jest, expecting a.text (modified false "toBeNull".toList) [])]
  | .notNull a =>
    [(.pytest, asserting a.text "is not".toList "None".toList),
      (.pytest, calling "self.assertIsNotNone".toList a.text),
      (.cargo, calling "assert!".toList (a.text ++ ".is_some()".toList)),
      (.jest, expecting a.text (modified true "toBeNull".toList) [])]
  | .member a b =>
    [(.pytest, asserting a.text "in".toList b.text),
      (.pytest, calling "self.assertIn".toList (both a.text b.text)),
      (.jest, expecting b.text (modified false "toContain".toList) a.text)]
  | .notMember a b =>
    [(.pytest, asserting a.text "not in".toList b.text),
      (.pytest, calling "self.assertNotIn".toList (both a.text b.text)),
      (.jest, expecting b.text (modified true "toContain".toList) a.text)]

/-- The assertion that an expectation stands for. -/
def Expectation.assertion : Expectation → Assertion
  | .related r a b => comparison a.text r.sign b.text
  | .null a => on .nullCheck a.text (.bool true)
  | .notNull a => on .nullCheck a.text (.bool false)
  | .member a b => comparison a.text "in".toList b.text
  | .notMember a b => comparison a.text "not in".toList b.text

/-! ## Calls and their arguments -/

theorem noComma {a : Text} (ha : IsOperand a) : TopAll (· != ',') a := by
  refine ha.top.imp fun c hc => ?_
  rw [bne_iff_ne]
  rintro rfl
  exact absurd hc (by decide)

theorem noComma_sign {w : Text} (hw : w ∈ signs) : TopAll (· != ',') (spaced w) := by
  revert w
  decide

theorem closed_both {a b : Text} (ha : IsOperand a) (hb : IsOperand b) : Closed (both a b) := by
  have hsep : Closed [',', ' '] := by decide
  have htext : both a b = a ++ ([',', ' '] ++ b) := rfl
  rw [htext]
  exact ha.closed.append (hsep.append hb.closed (.inl (by decide))) (.inr (by simp))

theorem splitTop_both {a b : Text} (ha : IsOperand a) (hb : IsOperand b) : splitTop ',' (both a b) = [a, b] :=
  splitTop_pair ha.closed (noComma ha) hb.closed (noComma hb) ha.trim_self hb.trim_self ha.nonempty hb.nonempty

theorem splitTop_operand {a : Text} (ha : IsOperand a) : splitTop ',' a = [a] :=
  splitTop_single (noComma ha) ha.trim_self ha.nonempty

theorem splitTop_join {a b w : Text} (ha : IsOperand a) (hb : IsOperand b) (hw : Closed (spaced w))
    (hcomma : TopAll (· != ',') (spaced w)) :
    splitTop ',' (a ++ (spaced w ++ b)) = [a ++ (spaced w ++ b)] := by
  have hfresh : Fresh (spaced w).getLast? := by
    rw [getLast?_spaced]
    decide
  have hright := hcomma.append (noComma hb) hw (.inl hfresh)
  exact splitTop_single ((noComma ha).append hright ha.closed (.inr (by simp [spaced]))) (trim_join ha hb w)
    (by simp [spaced])

/-- The arguments of a call are those of its text. -/
theorem arguments?_calling {function arguments : Text} (hf : Closed function) (ha : Closed arguments) :
    arguments? (calling function arguments) function.length = some (splitTop ',' arguments) := by
  have hclose := closeOf?_group hf ha (o := '(') (c := ')') rfl rfl []
  rw [arguments?, calling, hclose, Option.map_some, take_drop_group]

/-- A call ends with its parenthesis. -/
theorem trim_calling {function : Text} {c : Char} (hhead : function.head? = some c)
    (hblank : isBlank c = false) (arguments : Text) :
    trim (calling function arguments) = calling function arguments := by
  have hlast : (calling function arguments).getLast? = some ')' :=
    getLast?_append_some (getLast?_append_some (a := '(' :: arguments) rfl)
  refine trim_eq_self_iff.2 ⟨fun d hd => ?_, fun d hd => ?_⟩
  · rw [calling, head?_append_some hhead, Option.some.injEq] at hd
    exact hd ▸ hblank
  · rw [hlast, Option.some.injEq] at hd
    exact hd ▸ (by decide)

theorem withoutSemicolon_calling {function : Text} {c : Char} (hhead : function.head? = some c)
    (hblank : isBlank c = false) (arguments : Text) :
    withoutSemicolon (calling function arguments) = calling function arguments := by
  have hlast : (calling function arguments).getLast? = some ')' :=
    getLast?_append_some (getLast?_append_some (a := '(' :: arguments) rfl)
  have htrim := trim_calling hhead hblank arguments
  have hstrip : stripTrailing ';' (calling function arguments) = calling function arguments := by
    refine dropEndWhile_of_last fun d hd => ?_
    rw [hlast, Option.some.injEq] at hd
    exact hd ▸ (by decide)
  rw [withoutSemicolon, htrim, hstrip]
  exact trimEnd_of_last (trim_eq_self_iff.1 htrim).2

/-! ## Reading each way to write -/

theorem extract_asserting {a b w : Text} (ha : IsOperand a) (hb : IsOperand b) (hw : Closed (spaced w))
    (hcomma : TopAll (· != ',') (spaced w)) :
    extract? .pytest (asserting a w b) = some ⟨[truth (a ++ (spaced w ++ b))], []⟩ := by
  have htrim : trim (asserting a w b) = asserting a w b := by
    refine trim_eq_self_iff.2 ⟨fun c hc => ?_, fun c hc => ?_⟩
    · have hhead : (asserting a w b).head? = some 'a' := rfl
      rw [hhead, Option.some.injEq] at hc
      exact hc ▸ (by decide)
    · obtain ⟨d, hd⟩ := Option.isSome_iff_exists.1 (List.getLast?_isSome.2 hb.nonempty)
      have hlast : (asserting a w b).getLast? = some d :=
        getLast?_append_some (getLast?_append_some (getLast?_append_some hd))
      rw [hlast, Option.some.injEq] at hc
      exact isBlank_of_isOperandEnd (hc ▸ hb.last_end hd)
  have hdrop : dropPrefix? "assert ".toList (asserting a w b) = some (a ++ (spaced w ++ b)) :=
    dropPrefix?_append _ _
  simp only [extract?, extractPytest?, htrim, hdrop, splitTop_join ha hb hw hcomma]
  rfl

theorem extract_method (name : Text) {arguments : Text} (hname : ∀ c ∈ name, isPlain c = true)
    (hassert : startsWith name "assert".toList = true) (harguments : Closed arguments)
    {x : Assertion} {n : Nat}
    (hx : methodAssertion? (String.ofList name) (splitTop ',' arguments) = some (x, some n))
    (hmessage : (splitTop ',' arguments)[n]? = none) :
    extract? .pytest (calling ("self.".toList ++ name) arguments) = some ⟨[x], []⟩ := by
  have htrim : trim (calling ("self.".toList ++ name) arguments) =
      calling ("self.".toList ++ name) arguments :=
    trim_calling (c := 's') rfl (by decide) arguments
  have hassertion : dropPrefix? "assert ".toList (calling ("self.".toList ++ name) arguments) = none := rfl
  have hwith : startsWith (calling ("self.".toList ++ name) arguments) "with ".toList = false := rfl
  have hraising : raisingCall? (calling ("self.".toList ++ name) arguments) = none := rfl
  have hself : dropPrefix? "self.".toList (calling ("self.".toList ++ name) arguments) =
      some (calling name arguments) := dropPrefix?_append "self.".toList _
  have hparen : '(' ∉ name := fun h => absurd (hname _ h) (by decide)
  have hfind : find? ['('] (calling name arguments) = some name.length := by
    rw [find?, calling, cut?_char hparen]
    rfl
  have htake : (calling name arguments).take name.length = name := List.take_left
  have hcall : methodCallAssertion? (calling ("self.".toList ++ name) arguments) = some x := by
    have hargs := arguments?_calling (closed_of_plain hname) harguments
    simp only [methodCallAssertion?, hself, hfind, htake, hassert, hargs, hx, hmessage, Option.bind_eq_bind,
      Option.bind_some, Option.map_none]
    rfl
  simp only [extract?, extractPytest?, htrim, hassertion, hwith, hraising, hcall]
  rfl

theorem extract_cargo {name : String} {arguments : Text} (hclosed : Closed name.toList)
    (hhead : name.toList.head? = some 'a') (harguments : Closed arguments)
    (hname : assertionMacros.find?
      (fun m => startsWith (calling name.toList arguments) (m.toList ++ ['('])) = some name) {x : Assertion}
    {n : Nat} (hx : macroAssertion name (splitTop ',' arguments) = (x, n))
    (hmessage : (splitTop ',' arguments)[n]? = none) :
    extract? .cargo (calling name.toList arguments) = some ⟨[x], []⟩ := by
  have hwhole := withoutSemicolon_calling hhead (by decide) arguments
  have hdebug : dropPrefix? "debug_".toList (calling name.toList arguments) = none := by
    obtain ⟨u, hu⟩ := List.head?_eq_some_iff.1 hhead
    rw [calling, hu]
    rfl
  have hargs := arguments?_calling hclosed harguments
  rw [String.length_toList] at hargs
  simp only [extract?, extractCargo?, hwhole, hdebug, Option.getD_none, hname, hargs, Option.bind_eq_bind,
    Option.bind_some, hx, hmessage]
  rfl

/-! ## Matchers -/

/-- A function without parameters begins with a blank at its top level, as no operand does. -/
theorem subjectOf_operand {a : Text} (ha : IsOperand a) : subjectOf a = a := by
  have hfunction : ∀ w v, Closed w → a ≠ w ++ ' ' :: v := by
    rintro w v hw rfl
    exact absurd (ha.isOperandChar_of_append hw (by decide)) (by decide)
  have hplain : dropPrefix? "() =>".toList a = none := by
    rw [Option.eq_none_iff_forall_ne_some]
    intro v hv
    rw [dropPrefix?_eq_some_iff] at hv
    exact hfunction "()".toList ("=>".toList ++ v) (by decide) hv
  have hasync : dropPrefix? "async () =>".toList a = none := by
    rw [Option.eq_none_iff_forall_ne_some]
    intro v hv
    rw [dropPrefix?_eq_some_iff] at hv
    exact hfunction "async".toList ("() =>".toList ++ v) (by decide) hv
  simp only [subjectOf, ha.trim_self, hplain, hasync, Option.or_none]

theorem matcherFrom_word {word arguments : Text} (hw : ∀ c ∈ word, (isAlphanumeric c || c == '_') = true)
    (harguments : Closed arguments) (negated rejects : Bool) (fuel : Nat) :
    matcherFrom negated rejects (fuel + 1) ('.' :: calling word arguments) =
      some ⟨negated, rejects, word, argument (splitTop ',' arguments) 0⟩ := by
  have htake : (calling word arguments).takeWhile (fun c => isAlphanumeric c || c == '_') = word := by
    rw [calling, List.takeWhile_append_of_pos hw, List.takeWhile_cons_of_neg (by decide), List.append_nil]
  have hdrop : (calling word arguments).drop word.length = calling [] arguments := List.drop_left
  have hargs := arguments?_calling closed_nil harguments
  rw [List.length_nil] at hargs
  simp only [matcherFrom, htake, hdrop, hargs]
  rfl

theorem matcherFrom_not (negated rejects : Bool) (fuel : Nat) (rest : Text) :
    matcherFrom negated rejects (fuel + 1) (".not.".toList ++ rest) =
      matcherFrom (!negated) rejects fuel ('.' :: rest) := by
  rfl

/-- The subject and the matcher of an expectation, if the parenthesis after the subject is the one that
closes it. -/
theorem expectation?_expecting {a : Text}
    (hends : closeOf? (calling "expect".toList a) 6 = some (6 + a.length + 1)) (chain arguments : Text) :
    expectation? (expecting a chain arguments) =
      (matcherFrom false false ((calling chain arguments).length + 1) (calling chain arguments)).map
        fun m => (subjectOf a, m) := by
  have hsplit : expecting a chain arguments =
      "expect".toList ++ '(' :: (a ++ ')' :: calling chain arguments) := by
    simp [expecting, calling]
  have hhead : (calling "expect".toList a ++ chain).head? = some 'e' := rfl
  have hwhole : withoutSemicolon (expecting a chain arguments) = expecting a chain arguments :=
    withoutSemicolon_calling hhead (by decide) arguments
  have htrim : trim (expecting a chain arguments) = expecting a chain arguments :=
    trim_calling hhead (by decide) arguments
  have hawait : dropPrefix? "await ".toList (expecting a chain arguments) = none := rfl
  have hexpect : startsWith (expecting a chain arguments) "expect(".toList = true := rfl
  have hclose : closeOf? (expecting a chain arguments) 6 = some (6 + a.length + 1) := by
    have happend : expecting a chain arguments =
        calling "expect".toList a ++ calling chain arguments := by simp [expecting, calling]
    rw [happend]
    exact closeOf?_append hends _
  have hsubject : ((expecting a chain arguments).take (6 + a.length + 1)).drop 7 = a := by
    rw [hsplit]
    exact take_drop_group "expect".toList a _ _ _
  have hchain : (expecting a chain arguments).drop (6 + a.length + 1 + 1) = calling chain arguments := by
    rw [hsplit]
    exact drop_group "expect".toList a _ _ _
  simp only [expectation?, hwhole, hawait, Option.getD_none, htrim, hexpect, hclose, hsubject, hchain,
    Option.bind_eq_bind, Option.bind_some]
  exact Option.map_eq_bind.symm

theorem extract_jest {a chain arguments : Text} (ha : IsOperand a) {m : Matcher}
    (hm : ∀ fuel, matcherFrom false false (fuel + 2) (calling chain arguments) = some m)
    (hthrows : m.throws = false) :
    extract? .jest (expecting a chain arguments) = some ⟨[matcherAssertion a m], []⟩ := by
  have hends : closeOf? (calling "expect".toList a) 6 = some (6 + a.length + 1) :=
    closeOf?_group (by decide) ha.closed rfl rfl []
  have hfuel : (calling chain arguments).length + 1 = chain.length + arguments.length + 1 + 2 := by
    simp [calling]
    omega
  rw [extract?, extractJest?_eq, expectation?_expecting hends, hfuel, hm, subjectOf_operand ha]
  simp [Extraction.ofMatcher, hthrows]

/-! ## Every spelling says the same -/

namespace Operand

variable (a b : Operand)

theorem extract_sign {w : Text} (hw : w ∈ signs) :
    extract? .pytest (asserting a.text w b.text) = some ⟨[comparison a.text w b.text], []⟩ := by
  rw [extract_asserting a.isOperand b.isOperand (closed_spaced (isPlain_of_mem_signs hw)) (noComma_sign hw),
    truth_sign a.isOperand a.notNot b.isOperand hw]

theorem extract_word {w : Text} (hw : Closed (spaced w)) (hcomma : TopAll (· != ',') (spaced w))
    (htrim : trim w = w) (h : comparisonOperators.find? (startsWith (spaced w ++ b.text)) = some (spaced w)) :
    extract? .pytest (asserting a.text w b.text) = some ⟨[comparison a.text w b.text], []⟩ := by
  rw [extract_asserting a.isOperand b.isOperand hw hcomma,
    truth_word a.isOperand a.notNot b.isOperand htrim h]

theorem extract_method_both (name : Text) (hname : ∀ c ∈ name, isPlain c = true)
    (hassert : startsWith name "assert".toList = true) {x : Assertion}
    (hx : methodAssertion? (String.ofList name) [a.text, b.text] = some (x, some 2)) :
    extract? .pytest (calling ("self.".toList ++ name) (both a.text b.text)) = some ⟨[x], []⟩ := by
  have hsplit := splitTop_both a.isOperand b.isOperand
  exact extract_method name hname hassert (closed_both a.isOperand b.isOperand) (by rw [hsplit, hx])
    (by rw [hsplit]; rfl)

theorem extract_method_one (name : Text) (hname : ∀ c ∈ name, isPlain c = true)
    (hassert : startsWith name "assert".toList = true) {x : Assertion}
    (hx : methodAssertion? (String.ofList name) [a.text] = some (x, some 1)) :
    extract? .pytest (calling ("self.".toList ++ name) a.text) = some ⟨[x], []⟩ := by
  have hsplit := splitTop_operand a.isOperand
  exact extract_method name hname hassert a.isOperand.closed (by rw [hsplit, hx]) (by rw [hsplit]; rfl)

/-- The macro that takes one expression asserts that it holds. -/
theorem extract_assert {t : Text} (ht : Closed t) (hsplit : splitTop ',' t = [t]) :
    extract? .cargo (calling "assert!".toList t) = some ⟨[truth t], []⟩ :=
  extract_cargo (by decide) rfl ht rfl (by rw [hsplit]; rfl) (by rw [hsplit]; rfl)

theorem extract_assert_sign {w : Text} (hw : w ∈ signs) :
    extract? .cargo (calling "assert!".toList (a.text ++ (spaced w ++ b.text))) =
      some ⟨[comparison a.text w b.text], []⟩ := by
  have hplain := isPlain_of_mem_signs hw
  rw [extract_assert (closed_join a.isOperand.closed hplain b.isOperand.closed)
      (splitTop_join a.isOperand b.isOperand (closed_spaced hplain) (noComma_sign hw)),
    truth_sign a.isOperand a.notNot b.isOperand hw]

theorem extract_compared (name : String) (hclosed : Closed name.toList) (hhead : name.toList.head? = some 'a')
    (hname : assertionMacros.find?
      (fun m => startsWith (calling name.toList (both a.text b.text)) (m.toList ++ ['('])) = some name)
    {x : Assertion} (hx : macroAssertion name [a.text, b.text] = (x, 2)) :
    extract? .cargo (calling name.toList (both a.text b.text)) = some ⟨[x], []⟩ := by
  have hsplit := splitTop_both a.isOperand b.isOperand
  exact extract_cargo hclosed hhead (closed_both a.isOperand b.isOperand) hname (by rw [hsplit, hx])
    (by rw [hsplit]; rfl)

theorem extract_matcher (negated : Bool) (word : Text)
    (hw : ∀ c ∈ word, (isAlphanumeric c || c == '_') = true) {arguments : Text}
    (harguments : Closed arguments)
    (hthrows : (word == "toThrow".toList || word == "toThrowError".toList) = false) {x : Assertion}
    (hx : matcherAssertion a.text ⟨negated, false, word, argument (splitTop ',' arguments) 0⟩ = x) :
    extract? .jest (expecting a.text (modified negated word) arguments) =
      some ⟨[x], []⟩ := by
  subst hx
  refine extract_jest a.isOperand (fun fuel => ?_) (by simp only [Matcher.throws, hthrows, Bool.or_false])
  cases negated with
  | false => exact matcherFrom_word hw harguments false false (fuel + 1)
  | true =>
    exact (matcherFrom_not false false (fuel + 1) _).trans
      (matcherFrom_word hw harguments true false fuel)

theorem argument_text : argument (splitTop ',' a.text) 0 = a.text := by
  rw [splitTop_operand a.isOperand]
  rfl

end Operand

namespace Relation

variable (r : Relation) (a b : Operand)

theorem extract_method :
    extract? .pytest (calling ("self.".toList ++ r.method) (both a.text b.text)) =
      some ⟨[comparison a.text r.sign b.text], []⟩ := by
  cases r <;> exact a.extract_method_both b _ (by decide) rfl rfl

theorem extract_invocation :
    extract? .cargo (r.invocation a.text b.text) = some ⟨[comparison a.text r.sign b.text], []⟩ := by
  cases r with
  | equal => exact a.extract_compared b "assert_eq!" (by decide) rfl rfl rfl
  | unequal => exact a.extract_compared b "assert_ne!" (by decide) rfl rfl rfl
  | less | lessEqual | greater | greaterEqual => exact a.extract_assert_sign b (by decide)

theorem extract_matcher :
    extract? .jest (expecting a.text r.matcher b.text) =
      some ⟨[comparison a.text r.sign b.text], []⟩ := by
  refine a.extract_matcher (r == unequal) r.matcherName ?_ b.isOperand.closed ?_ ?_
  · cases r <;> decide
  · cases r <;> rfl
  · rw [b.argument_text]
    cases r <;> rfl

end Relation

/-- No value is what `None` stands for. -/
theorem comparison_none (a : Text) :
    comparison a "is".toList "None".toList = on .nullCheck a (.bool true) ∧
      comparison a "is not".toList "None".toList = on .nullCheck a (.bool false) := by
  have hnull : isNull "None".toList = true := by decide
  unfold comparison equalTo differentFrom
  simp only [hnull]
  exact ⟨rfl, rfl⟩

namespace Operand

variable (a b : Operand)

/-- The word that stands for no value. -/
def noneWord : Operand := ⟨"None".toList, by decide, by decide⟩

theorem extract_null :
    ∀ s ∈ (Expectation.null a).spellings,
      extract? s.1 s.2 = some ⟨[on .nullCheck a.text (.bool true)], []⟩ := by
  have hnone := (comparison_none a.text).1
  have hcall : IsOperand (a.text ++ ".is_none()".toList) := a.isOperand.append (by decide) (.inr (by decide))
  intro s hs
  simp only [Expectation.spellings, List.mem_cons, List.not_mem_nil, or_false] at hs
  rcases hs with rfl | rfl | rfl | rfl
  · rw [← hnone]
    exact a.extract_word noneWord (by decide) (by decide) (by decide) rfl
  · exact a.extract_method_one "assertIsNone".toList (by decide) rfl (by rw [← hnone]; rfl)
  · rw [extract_assert hcall.closed (splitTop_operand hcall), truth_is_none a.isOperand]
  · exact a.extract_matcher false "toBeNull".toList (by decide) closed_nil rfl rfl

theorem extract_notNull :
    ∀ s ∈ (Expectation.notNull a).spellings,
      extract? s.1 s.2 = some ⟨[on .nullCheck a.text (.bool false)], []⟩ := by
  have hnone := (comparison_none a.text).2
  have hcall : IsOperand (a.text ++ ".is_some()".toList) := a.isOperand.append (by decide) (.inr (by decide))
  intro s hs
  simp only [Expectation.spellings, List.mem_cons, List.not_mem_nil, or_false] at hs
  rcases hs with rfl | rfl | rfl | rfl
  · rw [← hnone]
    exact a.extract_word noneWord (by decide) (by decide) (by decide) rfl
  · exact a.extract_method_one "assertIsNotNone".toList (by decide) rfl (by rw [← hnone]; rfl)
  · rw [extract_assert hcall.closed (splitTop_operand hcall), truth_is_some a.isOperand]
  · exact a.extract_matcher true "toBeNull".toList (by decide) closed_nil rfl rfl

theorem extract_member :
    ∀ s ∈ (Expectation.member a b).spellings,
      extract? s.1 s.2 = some ⟨[comparison a.text "in".toList b.text], []⟩ := by
  intro s hs
  simp only [Expectation.spellings, List.mem_cons, List.not_mem_nil, or_false] at hs
  rcases hs with rfl | rfl | rfl
  · exact a.extract_word b (by decide) (by decide) (by decide) rfl
  · exact a.extract_method_both b "assertIn".toList (by decide) rfl rfl
  · exact b.extract_matcher false "toContain".toList (by decide) a.isOperand.closed rfl
      (by rw [a.argument_text]; rfl)

theorem extract_notMember :
    ∀ s ∈ (Expectation.notMember a b).spellings,
      extract? s.1 s.2 = some ⟨[comparison a.text "not in".toList b.text], []⟩ := by
  intro s hs
  simp only [Expectation.spellings, List.mem_cons, List.not_mem_nil, or_false] at hs
  rcases hs with rfl | rfl | rfl
  · exact a.extract_word b (by decide) (by decide) (by decide) rfl
  · exact a.extract_method_both b "assertNotIn".toList (by decide) rfl rfl
  · exact b.extract_matcher true "toContain".toList (by decide) a.isOperand.closed rfl
      (by rw [a.argument_text]; rfl)

end Operand

/-- **Every spelling of an expectation is read as the same assertion**, and as nothing else. -/
theorem extract_spellings (e : Expectation) :
    ∀ s ∈ e.spellings, extract? s.1 s.2 = some ⟨[e.assertion], []⟩ := by
  cases e with
  | related r a b =>
    intro s hs
    simp only [Expectation.spellings, List.mem_cons, List.not_mem_nil, or_false] at hs
    rcases hs with rfl | rfl | rfl | rfl
    · exact a.extract_sign b (by cases r <;> decide)
    · exact r.extract_method a b
    · exact r.extract_invocation a b
    · exact r.extract_matcher a b
  | null a => exact a.extract_null
  | notNull a => exact a.extract_notNull
  | member a b => exact a.extract_member b
  | notMember a b => exact a.extract_notMember b

/-- An operand that holds an operator, commas and a question of absence. -/
def nested : Operand := ⟨"find(\"a == b\", [1, 2]).is_none(x)".toList, by decide, by decide⟩

theorem extract_spellings_nested :
    (.cargo, "assert!(find(\"a == b\", [1, 2]).is_none(x).is_some())".toList) ∈
        (Expectation.notNull nested).spellings ∧
      extract? .cargo "assert!(find(\"a == b\", [1, 2]).is_none(x).is_some())".toList =
        some ⟨[on .nullCheck nested.text (.bool false)], []⟩ := by
  have hmem : (.cargo, "assert!(find(\"a == b\", [1, 2]).is_none(x).is_some())".toList) ∈
      (Expectation.notNull nested).spellings := .tail _ (.tail _ (.head _))
  exact ⟨hmem, extract_spellings (.notNull nested) _ hmem⟩

end Concord.Assertion
