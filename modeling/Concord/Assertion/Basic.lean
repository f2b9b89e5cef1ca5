/-
Assertions of tests: what is looked at, what is expected of it, and their form as
JSON.
-/
import Concord.Json.Decode
import Concord.Text.Blank

namespace Concord

open Json

/-- What kind of thing an assertion says. -/
inductive Assertion.Kind where
  | equality
  | inequality
  | membership
  | ordering
  | nullCheck
  | raises
  | stateTransition
  | countCheck
  | patternMatch
deriving DecidableEq, Repr, Inhabited

namespace Assertion.Kind

def all : List Kind :=
  [equality, inequality, membership, ordering, nullCheck, raises, stateTransition, countCheck,
    patternMatch]

def name : Kind → String
  | equality => "equality"
  | inequality => "inequality"
  | membership => "membership"
  | ordering => "ordering"
  | nullCheck => "null-check"
  | raises => "raises"
  | stateTransition => "state-transition"
  | countCheck => "count-check"
  | patternMatch => "pattern-match"

def ofName? (s : String) : Option Kind := all.find? fun k => k.name == s

theorem ofName?_name (k : Kind) : ofName? k.name = some k := by cases k <;> decide

end Assertion.Kind

/-- One thing that a test expects. -/
structure Assertion where
  kind : Assertion.Kind
  target : String
  /-- The expected value; for an error, what identifies it. -/
  expected : Datum
  /-- The value before a transition. -/
  actual : Option String := none
  message : Option String := none
deriving DecidableEq, Inhabited

namespace Assertion

def equal (target : String) (expected : Datum) : Assertion := { kind := .equality, target, expected }

/-- The target raises an error. -/
def raising (target error : String) : Assertion :=
  { kind := .raises, target, expected := .str error }

/-- What identifies the error of an assertion about one. -/
def errorIdentifier? (a : Assertion) : Option String :=
  match a.kind, a.expected.json with
  | .raises, .str s => if Text.allBlank s.toList then none else some s
  | _, _ => none

/-- The opposite of an expected value. -/
def opposite (d : Datum) : Datum :=
  ⟨.obj [("not", d.json)], by simp [isSettled, isSettledMembers, d.settled]⟩

end Assertion

namespace Encode

open Json.Encode

def assertion (a : Assertion) : Json :=
  .obj (member "kind" (.str a.kind.name) ++ member "target" (.str a.target) ++
    member "expected" a.expected.json ++
    memberUnless a.actual.isNone "actual" (option .str a.actual) ++
    memberUnless a.message.isNone "message" (option .str a.message))

end Encode

namespace Decode

open Json.Decode

def assertion : Decoder Assertion :=
  record ["kind", "target", "expected", "actual", "message"] do
    let kind ← field "kind" (variant Assertion.Kind.ofName?)
    let target ← field "target" string
    let expected ← fieldOr "expected" .null datum
    let actual ← fieldOption "actual" string
    let message ← fieldOption "message" string
    return { kind, target, expected, actual, message }

end Decode

end Concord
