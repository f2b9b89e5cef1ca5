/-
Test modules: functions whose name begins with `test`, at the top or in classes
whose name begins with `Test`, and the fixtures that they ask for.
-/
import Concord.Path
import Concord.Source.Indented.Model

namespace Concord.Source.Indented

open Text

/-- The name of a test module: that of its file. -/
def suiteName (origin : String) : String :=
  let stem := Path.stem origin.toList
  if stem.isEmpty then "tests" else String.ofList stem

/-- What a test module is about. -/
def subjectOf (name : String) : String :=
  let t := name.toList
  String.ofList (Naming.pascal
    (((dropPrefix? "test_".toList t).or (dropSuffix? "_test".toList t)).getD t))

/-- Whether decorations make a function a fixture. -/
def isFixture (decorations : List Text) : Bool :=
  decorations.any fun d =>
    let d := stripLeading '@' d
    startsWith d "pytest.fixture".toList || startsWith d "fixture".toList

/-- The scope that a decoration gives. -/
def scopeIn? (decoration : Text) : Option Text := do
  let (_, rest) ← cut? "scope".toList decoration
  let value ← dropPrefix? ['='] (trimStart rest)
  return unquote ((trimStart value).takeWhile fun c => c != ',' && c != ')')

/-- The methods of a class that run around each test. -/
def isHook (name : Text) : Bool :=
  ["setUp", "tearDown", "setup_method", "teardown_method"].any (·.toList == name)

/-- The test of a function, with the documentation that it begins with. -/
def caseOf? (owner : Option Text) (decorations : List Text) (s : Signature)
    (body : List Statement) : Option Case := do
  let doc ← match docLiteral? body with
    | some t => (docText? t).map fun d => some (String.ofList d)
    | none => some none
  return {
    name := String.ofList ((owner.map (· ++ "::".toList)).getD [] ++ s.name.text)
    doc
    decorations := decorations.map String.ofList
    fixtures := s.parameters.map (·.name)
    body := ← bodyTexts? body
    line := UInt64.ofNat (s.line + 1) }

/-- Adds what a function of a test module, or of its class `owner`, is. -/
def addFunction (owner : Option Text) (suite : Suite) (decorations : List Text) (s : Signature)
    (body : List Statement) : Option Suite := do
  let fixture := fun (scope : Text) => do
    let f : Fixture := ⟨String.ofList s.name.text, String.ofList scope, ← bodyTexts? body⟩
    return { suite with fixtures := suite.fixtures ++ [f] }
  if isFixture decorations then
    fixture ((decorations.findSome? scopeIn?).getD "function".toList)
  else if owner.isSome && isHook s.name.text then fixture "function".toList
  else if startsWith s.name.text "test".toList then
    let c ← caseOf? owner decorations s body
    return { suite with cases := suite.cases ++ [c] }
  else return suite

/-- Adds what a statement at the top of a test module is. -/
def addStatement (suite : Suite) : Statement → Option Suite
  | .function _ decorations s body => addFunction none suite decorations s body
  | .record _ _ h body =>
    if startsWith h.name.text "Test".toList then
      let suite := if occurs "TestCase".toList h.basesText then { suite with framework := "unittest" }
        else suite
      body.foldlM (fun suite s =>
        match s with
        | .function _ decorations s body => addFunction (some h.name.text) suite decorations s body
        | _ => some suite) suite
    else some suite
  | _ => some suite

/-- The test module that some statements make up. -/
def suite? (origin : String) (statements : List Statement) : Option Suite :=
  let name := suiteName origin
  statements.foldlM addStatement {
    name, subject := subjectOf name, framework := "pytest", format := .pytest
    metadata := .ofList [("file_path", origin)] }

end Concord.Source.Indented
