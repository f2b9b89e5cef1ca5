/-
Test plans from test modules.
-/
import Concord.Scenario.Build

namespace Concord.Plan

open Text

/-- Verbs that tell what a test module is about. -/
def families : List (Focus × List String) :=
  [(.create, ["create", "add", "insert", "register"]),
    (.read, ["get", "read", "find", "list", "fetch", "search"]),
    (.update, ["update", "edit", "modify", "change", "rename"]),
    (.delete, ["delete", "remove", "destroy", "archive"])]

/-- The methods that the scenarios use when they act. -/
def coveredBy (scenarios : List Scenario) : NameSet :=
  NameSet.ofList (((scenarios.flatMap fun s => s.action).flatMap
    fun step => Scenario.methodCalls step.toList).filterMap fun name =>
      if name.head? == some '_' then none else some (String.ofList name))

/-- What a test module is about. -/
def focusOf (scenarios : List Scenario) (covered : NameSet) : Focus :=
  let words := (scenarios.map Scenario.name ++ covered.names).flatMap Scenario.wordsOf
  let transitions := (scenarios.flatMap Scenario.assertions).any (·.kind == .stateTransition)
  let errors := scenarios.countP fun s => s.category == .errorPath
  if transitions || Scenario.mentions words ["transition", "state", "status", "lifecycle"] then
    .stateMachine
  else if Scenario.mentions words ["validate", "validation", "valid", "invalid"] ||
      scenarios.length < errors * 2 then .validation
  else match families.filter fun f => Scenario.mentions words f.2 with
    | [(focus, _)] => focus
    | _ => .workflow

/-- The plan of a test module. -/
def ofSuite (s : Source.Suite) : Plan :=
  let scenarios := s.cases.map (Scenario.ofCase (.of s.format s.framework))
  let covered := coveredBy scenarios
  { name := s.name
    subject := s.subject
    focus := focusOf scenarios covered
    scenarios
    fixtures := s.fixtures.map fun f => ⟨f.name, f.scope⟩
    covered }

end Concord.Plan
