/-
Assertions from the statements of tests, as the test frameworks write them.
-/
import Concord.Assertion.Expression
import Concord.Source.Format
import Concord.Statement.Indented
import Concord.Text.Case

namespace Concord.Assertion

open Text Code

/-- What a statement of a test asserts, and what it does on the way. -/
structure Extraction where
  assertions : List Assertion
  actions : List Text := []
deriving DecidableEq

/-- A framework for tests, or none in particular. -/
inductive Framework where
  | pytest
  | cargo
  | jest
  | any
deriving DecidableEq, Repr

def Framework.name : Framework → String
  | .pytest => "python"
  | .cargo => "rust"
  | .jest => "jest"
  | .any => "any"

/-- The framework of a test module, by its format and then by the framework it names. -/
def Framework.of (format : Source.Format) (framework : String) : Framework :=
  match format, lowered framework with
  | .python, _ | .pytest, _ => .pytest
  | .rust, _ => .cargo
  | .typescript, _ => .jest
  | _, "pytest" | _, "unittest" => .pytest
  | _, "rust" | _, "cargo" => .cargo
  | _, "jest" | _, "vitest" | _, "mocha" => .jest
  | _, _ => .any

/-- An assertion with the message that stands at an argument, if there is one. -/
def withMessage (a : Assertion) (message : Option Text) : Assertion :=
  match message with
  | some m => { a with message := some (unquoted m) }
  | none => a

/-- An argument, or nothing where it is missing. -/
def argument (arguments : List Text) (i : Nat) : Text := arguments.getD i []

/-- A call written out again. -/
def callText (function : Text) (arguments : List Text) : Text :=
  function ++ ['('] ++ join [',', ' '] arguments ++ [')']

/-! ## Assert statements, error blocks and assertion methods -/

/-- Calls that open a block which must raise. -/
def raisingBlocks : List Text :=
  ["pytest.raises(".toList, "self.assertRaises(".toList, "self.assertRaisesRegex(".toList]

/-- A block that must raise an error. -/
def raisingBlock? (t : Text) : Option Extraction := do
  let clause ← Statement.Indented.clause? t 4
  let header := trim ((cut? " as ".toList clause.header).map Prod.fst |>.getD clause.header)
  let call ← raisingBlocks.find? (startsWith header)
  let arguments ← arguments? header (call.length - 1)
  let error ← arguments.head?
  return ⟨[raising (String.ofList (clause.body.getLast?.getD [])) (String.ofList (trim error))],
    clause.body⟩

/-- Drops every leading `msg=`. -/
def dropMessageName : Text → Text
  | 'm' :: 's' :: 'g' :: '=' :: t => dropMessageName t
  | t => t

/-- What an assertion method asserts, and at which argument its message stands. -/
def methodAssertion? (name : String) (arguments : List Text) :
    Option (Assertion × Option Nat) :=
  let first := argument arguments 0
  let second := argument arguments 1
  let binary := fun (operator : String) => some (comparison first operator.toList second, some 2)
  match name with
  | "assertEqual" | "assertEquals" | "assertAlmostEqual" | "assertCountEqual"
  | "assertListEqual" | "assertDictEqual" => binary "=="
  | "assertNotEqual" | "assertNotEquals" => binary "!="
  | "assertIs" => binary "is"
  | "assertIsNot" => binary "is not"
  | "assertTrue" => some (truth first, some 1)
  | "assertFalse" => some (falsity first, some 1)
  | "assertIsNone" => some (comparison first "is".toList "None".toList, some 1)
  | "assertIsNotNone" => some (comparison first "is not".toList "None".toList, some 1)
  | "assertIn" => binary "in"
  | "assertNotIn" => binary "not in"
  | "assertGreater" => binary ">"
  | "assertGreaterEqual" => binary ">="
  | "assertLess" => binary "<"
  | "assertLessEqual" => binary "<="
  | "assertRegex" => some (on .patternMatch first (valueOf second), some 2)
  | "assertRaises" =>
    if 2 ≤ arguments.length then
      some (raising (String.ofList (callText second (arguments.drop 2))) (String.ofList first),
        none)
    else none
  | _ => none

/-- A call of an assertion method. -/
def methodCallAssertion? (t : Text) : Option Assertion := do
  let rest ← dropPrefix? "self.".toList t
  let place ← find? ['('] rest
  let name := rest.take place
  if !startsWith name "assert".toList then none
  let arguments ← arguments? rest place
  let (assertion, messageAt) ← methodAssertion? (String.ofList name) arguments
  return withMessage assertion
    ((messageAt.bind fun i => arguments[i]?).map dropMessageName)

/-- A call that gives the error and the function that must raise it. -/
def raisingCall? (t : Text) : Option Assertion :=
  if startsWith t "pytest.raises(".toList then
    match arguments? t "pytest.raises".length with
    | some (error :: function :: rest) =>
      some (raising (String.ofList (callText function rest)) (String.ofList error))
    | _ => none
  else none

def extractPytest? (statement : Text) : Option Extraction :=
  let t := trim statement
  match dropPrefix? "assert ".toList t with
  | some body =>
    let parts := splitTop ',' body
    some ⟨[withMessage (truth (parts.head?.getD body)) parts[1]?], []⟩
  | none =>
    if startsWith t "with ".toList then raisingBlock? t
    else ((raisingCall? t).or (methodCallAssertion? t)).map fun a => ⟨[a], []⟩

/-! ## Assertion macros -/

/-- A statement without the semicolons at its end. -/
def withoutSemicolon (t : Text) : Text := trimEnd (stripTrailing ';' (trim t))

def assertionMacros : List String := ["assert_eq!", "assert_ne!", "assert_matches!", "assert!"]

/-- What an assertion macro asserts, and at which argument its message stands. -/
def macroAssertion (name : String) (arguments : List Text) : Assertion × Nat :=
  let first := argument arguments 0
  let second := argument arguments 1
  match name with
  | "assert_eq!" => (comparison first "==".toList second, 2)
  | "assert_ne!" => (comparison first "!=".toList second, 2)
  | "assert_matches!" => (on .patternMatch first (.str (String.ofList second)), 2)
  | _ => (truth first, 1)

def extractCargo? (statement : Text) : Option Extraction := do
  let t := withoutSemicolon statement
  let t := (dropPrefix? "debug_".toList t).getD t
  let name ← assertionMacros.find? fun m => startsWith t (m.toList ++ ['('])
  let arguments ← arguments? t name.length
  let (assertion, messageAt) := macroAssertion name arguments
  return ⟨[withMessage assertion arguments[messageAt]?], []⟩

/-! ## Expectations with matchers -/

/-- A matcher after its modifiers. -/
structure Matcher where
  negated : Bool
  rejects : Bool
  name : Text
  argument : Text
deriving DecidableEq, Repr

/-- The modifiers and the matcher at the beginning of a text, at most `fuel` words. -/
def matcherFrom (negated rejects : Bool) : (fuel : Nat) → Text → Option Matcher
  | 0, _ => none
  | fuel + 1, t =>
    match t with
    | '.' :: chain =>
      let word := chain.takeWhile fun c => isAlphanumeric c || c == '_'
      let rest := chain.drop word.length
      if rest.head? == some '(' then
        (arguments? rest 0).map fun arguments => ⟨negated, rejects, word, argument arguments 0⟩
      else if word == "not".toList then matcherFrom (!negated) rejects fuel rest
      else if word == "rejects".toList then matcherFrom negated true fuel rest
      else matcherFrom negated rejects fuel rest
    | _ => none

/-- The subject of an expectation; a function without parameters stands for its body. -/
def subjectOf (t : Text) : Text :=
  let t := trim t
  match (dropPrefix? "() =>".toList t).or (dropPrefix? "async () =>".toList t) with
  | some body => trim body
  | none => t

/-- The value, or its opposite. -/
def oppositeIf (negated : Bool) (d : Datum) : Datum := if negated then opposite d else d

/-- What identifies the error of a matcher's argument. -/
def errorOf (argument : Text) : String :=
  let error := unquoted argument
  if allBlank error.toList then "Error" else error

/-- What a matcher says of its subject. -/
def matcherAssertion (subject : Text) (m : Matcher) : Assertion :=
  let either := fun (yes no : String) => (if m.negated then no else yes).toList
  match String.ofList m.name with
  | "toBe" | "toEqual" | "toStrictEqual" => comparison subject (either "==" "!=") m.argument
  | "toBeNull" | "toBeUndefined" => on .nullCheck subject (.bool !m.negated)
  | "toBeDefined" => on .nullCheck subject (.bool m.negated)
  | "toBeTruthy" => on .equality subject (.bool !m.negated)
  | "toBeFalsy" => on .equality subject (.bool m.negated)
  | "toContain" | "toContainEqual" | "toHaveProperty" =>
    comparison m.argument (either "in" "not in") subject
  | "toHaveLength" => on .countCheck subject (oppositeIf m.negated (valueOf m.argument))
  | "toBeGreaterThan" => comparison subject (either ">" "<=") m.argument
  | "toBeGreaterThanOrEqual" => comparison subject (either ">=" "<") m.argument
  | "toBeLessThan" => comparison subject (either "<" ">=") m.argument
  | "toBeLessThanOrEqual" => comparison subject (either "<=" ">") m.argument
  | "toMatch" => on .patternMatch subject (oppositeIf m.negated (valueOf m.argument))
  | "toThrow" | "toThrowError" => raising (String.ofList subject) (errorOf m.argument)
  | name =>
    if m.rejects then raising (String.ofList subject) name
    else on (if m.negated then .inequality else .equality) subject
      (.str (String.ofList (m.name ++ ['('] ++ m.argument ++ [')'])))

/-- Whether a matcher is about an error. -/
def Matcher.throws (m : Matcher) : Bool :=
  m.name == "toThrow".toList || m.name == "toThrowError".toList || m.rejects

def extractJest? (statement : Text) : Option Extraction := do
  let t := withoutSemicolon statement
  let t := trim ((dropPrefix? "await ".toList t).getD t)
  if !startsWith t "expect(".toList then none
  let close ← closeOf? t 6
  let subject := subjectOf ((t.take close).drop 7)
  let chain := t.drop (close + 1)
  let m ← matcherFrom false false (chain.length + 1) chain
  -- a call that must not throw is done and asserts nothing
  if m.throws && m.negated then return ⟨[], [subject]⟩
  return ⟨[matcherAssertion subject m], []⟩

/-- What a statement asserts; nothing if it is no assertion of the framework. -/
def extract? : Framework → Text → Option Extraction
  | .pytest, t => extractPytest? t
  | .cargo, t => extractCargo? t
  | .jest, t => extractJest? t
  | .any, t => ((extractPytest? t).or (extractCargo? t)).or (extractJest? t)

end Concord.Assertion
