/-
Scenarios from test cases. Statements before the first assertion prepare, the
last of them acts; later ones act, and calls that clean up at the end are kept apart.
An equality that holds of a target with one value, and after some action with another,
is a transition.
-/
import Concord.Assertion.Extract
import Concord.Naming
import Concord.Scenario.Basic
import Concord.Scenario.Calls
import Concord.Source.Entity
import Concord.Source.Suite
import Concord.Text.Lines

namespace Concord.Scenario

open Text Assertion

/-! ## Words -/

def securityWords : List String :=
  ["auth", "unauthorized", "unauthenticated", "permission", "permissions", "forbidden",
    "security", "injection", "xss", "csrf", "token", "access"]

def errorWords : List String :=
  ["error", "errors", "invalid", "fail", "fails", "raises", "raise", "reject", "rejected",
    "rejects", "exception", "missing", "denied", "wrong", "bad"]

def performanceWords : List String :=
  ["performance", "perf", "slow", "timeout", "load", "latency", "benchmark"]

def boundaryWords : List String :=
  ["boundary", "limit", "limits", "max", "min", "maximum", "minimum", "overflow", "zero"]

def edgeWords : List String := ["edge", "corner", "empty", "unicode", "null", "none", "duplicate"]

/-- The words of a name. -/
def wordsOf (name : String) : List String := (Naming.tokens name.toList).map String.ofList

/-- Whether one of the words is in a list. -/
def mentions (words known : List String) : Bool := known.any words.contains

/-- What a scenario is about, by the words of its name and its assertions. -/
def categorize (name : String) (assertions : List Assertion) : Category :=
  let words := wordsOf name
  if mentions words securityWords then .security
  else if mentions words errorWords || assertions.any (·.kind == .raises) then .errorPath
  else if mentions words performanceWords then .performance
  else if mentions words boundaryWords then .boundary
  else if mentions words edgeWords then .edge
  else .primaryPath

/-! ## Statements -/

/-- Beginnings of the names of calls that clean up. -/
def cleanupWords : List Text :=
  ["delete".toList, "close".toList, "cleanup".toList, "teardown".toList, "rollback".toList]

/-- Whether a statement is a call that cleans up. -/
def isCleanup (statement : String) : Bool :=
  match callee? (trim statement.toList) with
  | some name => cleanupWords.any (startsWith (lower name))
  | none => false

/-- A value as the text before a transition. -/
def valueText (d : Datum) : String :=
  match d.json with
  | .str s => s
  | j => j.compact

/-- A scenario while its statements are read. -/
structure Draft where
  setup : List String := []
  action : List String := []
  assertions : List Assertion := []
  /-- Statements since the last assertion. -/
  pending : List String := []
  /-- The values that targets were last found equal to, with the number of actions before. -/
  values : List (String × Datum × Nat) := []

namespace Draft

/-- Statements before a first assertion: the last acts, the others prepare. -/
def placeFirst (d : Draft) : Draft :=
  match d.pending.getLast? with
  | none => d
  | some last =>
    { d with setup := d.setup ++ d.pending.dropLast, action := d.action ++ [last], pending := [] }

/-- The pending statements put where they belong when an assertion follows, which itself does
`actions`. -/
def place (d : Draft) (actions : List String) : Draft :=
  let placed :=
    if d.assertions.isEmpty && actions.isEmpty then d.placeFirst
    else if d.assertions.isEmpty then { d with setup := d.setup ++ d.pending, pending := [] }
    else { d with action := d.action ++ d.pending, pending := [] }
  { placed with action := placed.action ++ actions }

/-- The value that a target was last found equal to, and after how many actions. -/
def value? (d : Draft) (target : String) : Option (Datum × Nat) :=
  (d.values.find? fun v => v.1 == target).map Prod.snd

/-- An equality as a transition, if the target had another value before some action. -/
def settled (d : Draft) (a : Assertion) : Assertion :=
  match a.kind, d.value? a.target with
  | .equality, some (before, since) =>
    if since < d.action.length && !before.json.same a.expected.json then
      { a with kind := .stateTransition, actual := some (valueText before) }
    else a
  | _, _ => a

/-- Takes in one assertion. -/
def assert (d : Draft) (a : Assertion) : Draft :=
  let a := d.settled a
  let values :=
    if a.kind == .equality || a.kind == .stateTransition then
      (a.target, a.expected, d.action.length) :: d.values
    else d.values
  { d with assertions := d.assertions ++ [a], values }

/-- Takes in one statement. -/
def read (framework : Framework) (d : Draft) (statement : String) : Draft :=
  match extract? framework statement.toList with
  | none => { d with pending := d.pending ++ [statement] }
  | some e => e.assertions.foldl assert (d.place (e.actions.map String.ofList))

end Draft

/-- The error that a decoration expects, if it names one. -/
def expectedError? : Text → Option Text
  | [] => none
  | c :: t =>
    match (do
      let rest ← dropPrefix? "expected".toList (c :: t)
      let rest ← dropPrefix? ['='] (trimStart rest)
      let rest ← dropPrefix? ['"'] (trimStart rest)
      let (error, _) ← cut? ['"'] rest
      return error : Option Text) with
    | some error => some error
    | none => expectedError? t

/-- The error that a test decorated so is expected to end with. -/
def panicError (decoration : String) : String :=
  match expectedError? decoration.toList with
  | some error =>
    let error := trim error
    if error.isEmpty then "panic" else String.ofList error
  | none => "panic"

/-- The assertion that a decoration adds: the last action ends with an error. -/
def panicAssertion? (c : Source.Case) (action : List String) (assertions : List Assertion) :
    Option Assertion :=
  match c.decorations.find? fun d => occurs "should_panic".toList d.toList with
  | some decoration =>
    if assertions.any (·.kind == .raises) then none
    else some (raising (action.getLast?.getD c.name) (panicError decoration))
  | none => none

/-- The name of a case without the class it stands in. -/
def ownName (name : Text) : Text := ((cutLast? "::".toList name).map Prod.snd).getD name

/-- The name that a decoration marks a case with. -/
def markOf? (decoration : String) : Option String :=
  let d := stripTrailing ']' (Source.bareDecoration (trim decoration.toList))
  let head := trim (d.takeWhile (· != '('))
  let last := (head.reverse.takeWhile fun c => !(c == '.' || c == ':')).reverse
  if last.isEmpty || last == "test".toList then none else some (String.ofList last)

/-- What the first line of a documentation says, or else the words of the name. -/
def describe (c : Source.Case) : String :=
  match c.doc.bind fun doc => ((lines doc.toList).map trim).find? fun l => !l.isEmpty with
  | some line => String.ofList line
  | none => String.ofList (Naming.phrase (ownName c.name.toList))

/-- The scenario of a test case. -/
def ofCase (framework : Framework) (c : Source.Case) : Scenario :=
  let d := c.body.foldl (Draft.read framework) {}
  let (d, teardown) :=
    if d.assertions.isEmpty then (d.placeFirst, [])
    else ({ d with action := d.action ++ d.pending.filter fun s => !isCleanup s },
      d.pending.filter isCleanup)
  let assertions := d.assertions ++ (panicAssertion? c d.action d.assertions).toList
  { name := c.name
    description := describe c
    category := categorize (String.ofList (ownName c.name.toList)) assertions
    setup := d.setup
    action := d.action
    teardown
    assertions
    fixtures := c.fixtures
    tags := c.decorations.filterMap markOf? }

end Concord.Scenario
