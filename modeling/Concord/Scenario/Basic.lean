/-
Test plans: the scenarios of a test module, whatever framework it was written
for, and their form as JSON. `Plan.defect?` states which plans cannot be compared.
-/
import Concord.Assertion.Basic
import Concord.Failure
import Concord.Json.Writer
import Concord.Order.NameSet

namespace Concord

open Json

/-- What a scenario is about. -/
inductive Scenario.Category where
  | primaryPath
  | errorPath
  | boundary
  | edge
  | security
  | performance
deriving DecidableEq, Repr, Inhabited

namespace Scenario.Category

def all : List Scenario.Category := [primaryPath, errorPath, boundary, edge, security, performance]

def name : Scenario.Category → String
  | primaryPath => "primary-path"
  | errorPath => "error-path"
  | boundary => "boundary"
  | edge => "edge"
  | security => "security"
  | performance => "performance"

def ofName? (s : String) : Option Scenario.Category := all.find? fun c => c.name == s

theorem ofName?_name (c : Scenario.Category) : ofName? c.name = some c := by cases c <;> decide

end Scenario.Category

/-- What a test module is about as a whole. -/
inductive Plan.Focus where
  | create
  | read
  | update
  | delete
  | validation
  | stateMachine
  | workflow
deriving DecidableEq, Repr, Inhabited

namespace Plan.Focus

def all : List Focus := [create, read, update, delete, validation, stateMachine, workflow]

def name : Focus → String
  | create => "crud-create"
  | read => "crud-read"
  | update => "crud-update"
  | delete => "crud-delete"
  | validation => "validation"
  | stateMachine => "state-machine"
  | workflow => "workflow"

def ofName? (s : String) : Option Focus := all.find? fun f => f.name == s

theorem ofName?_name (f : Focus) : ofName? f.name = some f := by cases f <;> decide

end Plan.Focus

/-- One scenario: statements to prepare, to act and to clean up, and what is asserted. -/
structure Scenario where
  name : String
  description : String := ""
  category : Scenario.Category := .primaryPath
  setup : List String := []
  action : List String := []
  teardown : List String := []
  assertions : List Assertion := []
  fixtures : List String := []
  tags : List String := []
deriving DecidableEq, Inhabited

/-- A fixture that scenarios ask for. -/
structure Plan.Fixture where
  name : String
  scope : String := "function"
deriving DecidableEq, Repr, Inhabited

/-- The scenarios of a test module. -/
structure Plan where
  name : String
  subject : String := ""
  focus : Plan.Focus := .workflow
  scenarios : List Scenario := []
  fixtures : List Plan.Fixture := []
  /-- The actions of the subject that scenarios use. -/
  covered : NameSet := .empty
deriving DecidableEq, Inhabited

namespace Plan

open Text

/-- The scenario of a name. -/
def scenario? (p : Plan) (name : String) : Option Scenario :=
  p.scenarios.find? fun s => s.name == name

/-- The number of assertions in all scenarios. -/
def assertionCount (p : Plan) : Nat :=
  (p.scenarios.map fun s => s.assertions.length).foldr (· + ·) 0

/-- The first assertion about an error that does not identify one. -/
def unidentified? (s : Scenario) : Option Assertion :=
  s.assertions.find? fun a => a.kind == .raises && a.errorIdentifier?.isNone

/-- The first thing wrong with scenarios that follow `index` others with the names `seen`. -/
def scenariosDefect? (plan : String) (index : Nat) (seen : List String) :
    List Scenario → Option ComparisonCause
  | [] => none
  | s :: rest =>
    if allBlank s.name.toList then some (.emptyScenarioName plan index)
    else if seen.contains s.name then some (.duplicateScenario plan s.name)
    else match unidentified? s with
      | some a => some (.missingError plan a.target s.name)
      | none => scenariosDefect? plan (index + 1) (s.name :: seen) rest

/-- The first reason why a plan cannot be compared. -/
def defect? (p : Plan) : Option ComparisonCause := scenariosDefect? p.name 0 [] p.scenarios

end Plan

namespace Encode

open Json.Encode

def scenario (s : Scenario) : Json :=
  .obj (member "name" (.str s.name) ++ member "description" (.str s.description) ++
    member "category" (.str s.category.name) ++
    memberUnless s.setup.isEmpty "setup" (strings s.setup) ++
    memberUnless s.action.isEmpty "action" (strings s.action) ++
    memberUnless s.teardown.isEmpty "teardown" (strings s.teardown) ++
    member "assertions" (list assertion s.assertions) ++
    memberUnless s.fixtures.isEmpty "fixtures" (strings s.fixtures) ++
    memberUnless s.tags.isEmpty "tags" (strings s.tags))

def planFixture (f : Plan.Fixture) : Json :=
  .obj (member "name" (.str f.name) ++ member "scope" (.str f.scope))

def plan (p : Plan) : Json :=
  .obj (member "name" (.str p.name) ++ member "subject" (.str p.subject) ++
    member "test_type" (.str p.focus.name) ++ member "scenarios" (list scenario p.scenarios) ++
    memberUnless p.fixtures.isEmpty "fixtures" (list planFixture p.fixtures) ++
    memberUnless p.covered.isEmpty "covered_actions" (strings p.covered.names))

end Encode

namespace Decode

open Json.Decode

def category : Decoder Scenario.Category := variant Scenario.Category.ofName?

def focus : Decoder Plan.Focus := variant Plan.Focus.ofName?

def scenario : Decoder Scenario :=
  record ["name", "description", "category", "setup", "action", "teardown", "assertions",
      "fixtures", "tags"] do
    let name ← field "name" string
    let description ← fieldOr "description" "" string
    let category ← fieldOr "category" .primaryPath category
    let setup ← fieldOr "setup" [] (list string)
    let action ← fieldOr "action" [] (list string)
    let teardown ← fieldOr "teardown" [] (list string)
    let assertions ← fieldOr "assertions" [] (list assertion)
    let fixtures ← fieldOr "fixtures" [] (list string)
    let tags ← fieldOr "tags" [] (list string)
    return { name, description, category, setup, action, teardown, assertions, fixtures, tags }

def planFixture : Decoder Plan.Fixture :=
  record ["name", "scope"] do
    let name ← field "name" string
    let scope ← fieldOr "scope" "function" string
    return { name, scope }

def plan : Decoder Plan :=
  record ["name", "subject", "test_type", "scenarios", "fixtures", "covered_actions"] do
    let name ← field "name" string
    let subject ← fieldOr "subject" "" string
    let focus ← fieldOr "test_type" .workflow focus
    let scenarios ← fieldOr "scenarios" [] (list scenario)
    let fixtures ← fieldOr "fixtures" [] (list planFixture)
    let covered ← fieldOr "covered_actions" .empty names
    return { name, subject, focus, scenarios, fixtures, covered }

end Decode

/-- A plan as it is stored. -/
def Plan.text (p : Plan) : String := (Encode.plan p).pretty

end Concord
