/-
Comparing two test plans: their scenarios are aligned, the assertions of aligned
scenarios are matched, and the shares of both give a verdict.
-/
import Concord.Equivalence.Alignment
import Concord.Equivalence.AssertionMatch
import Concord.Equivalence.Similarity

namespace Concord.Equivalence

/-- How far one plan stands in for another, strongest first. -/
inductive Level where
  | exact
  | strong
  | weak
  | none
deriving DecidableEq, Repr, Inhabited

namespace Level

def all : List Level := [exact, strong, weak, none]

def name : Level → String
  | exact => "EXACT"
  | strong => "STRONG"
  | weak => "WEAK"
  | none => "NONE"

def ofName? (s : String) : Option Level := all.find? fun l => l.name == s

/-- The place among the levels, zero for the strongest. -/
def rank : Level → Nat
  | exact => 0
  | strong => 1
  | weak => 2
  | none => 3

/-- Whether the level passes. -/
def passes (l : Level) : Bool := l == exact || l == strong

/-- The exit code; a level that does not pass fails only if `strict`. -/
def exitCode (l : Level) (strict : Bool) : Nat := if !l.passes && strict then 1 else 0

end Level

/-- Two scenarios that were aligned, by name. -/
structure Pair (α : Type) where
  reference : String
  candidate : String
  score : α
deriving DecidableEq, Repr, Inhabited

/-- What a comparison found. -/
structure Comparison (α : Type) where
  level : Level
  matched : List (Pair α)
  missing : List String
  extra : List String
  /-- The share of matched assertions by reference scenario. -/
  assertionMatch : KeyMap α
  coverageDelta : α
  /-- The share of reference scenarios that were aligned. -/
  matchShare : α
  /-- The mean share of matched assertions. -/
  meanAssertionMatch : α

variable {α : Type} [Score α]

/-- The verdict on the share of aligned scenarios, the mean share of matched assertions and the
number of extra scenarios. -/
def verdict (matchShare meanAssertionMatch : α) (extra : Nat) : Level :=
  if Score.one ≤ matchShare ∧ Score.ratio 95 100 ≤ meanAssertionMatch ∧ extra = 0 then .exact
  else if Score.ratio 9 10 ≤ matchShare ∧ Score.ratio 8 10 ≤ meanAssertionMatch then .strong
  else if Score.ratio 5 10 ≤ matchShare then .weak
  else .none

/-- The change of the number of assertions relative to the reference. -/
def coverageDelta (reference candidate : Nat) : α :=
  if reference = 0 then
    if candidate = 0 then Score.zero else Score.one
  else Score.ratio (Int.ofNat candidate - Int.ofNat reference) reference

/-- The alignment of the scenarios of two plans. -/
def alignScenarios (reference candidate : List Scenario) : Alignment Scenario Scenario α :=
  align scenarioScore threshold reference candidate

/-- The share of matched assertions of every aligned pair, looked up by name. -/
def assertionMatches (reference candidate : Plan) (pairs : List (Pair α)) : KeyMap α :=
  pairs.foldl (fun found pair =>
    match reference.scenario? pair.reference, candidate.scenario? pair.candidate with
    | some r, some c => found.insert pair.reference (assertionRatio r.assertions c.assertions)
    | _, _ => found) .empty

/-- The sum of some numbers, from the first to the last. -/
def total (xs : List α) : α := xs.foldl (· + ·) Score.zero

/-- Compares two plans that can be compared. -/
def compareSound (reference candidate : Plan) : Comparison α :=
  let alignment := alignScenarios (α := α) reference.scenarios candidate.scenarios
  let matched := alignment.matched.map fun m => (⟨m.1.name, m.2.1.name, m.2.2⟩ : Pair α)
  let extra := alignment.extra.map Scenario.name
  let assertionMatch := assertionMatches reference candidate matched
  let count := reference.scenarios.length
  let matchShare : α := if count = 0 then Score.one else Score.ratio matched.length count
  let shares := assertionMatch.members.map Prod.snd
  let meanAssertionMatch : α :=
    if shares.isEmpty then (if count = 0 then Score.one else Score.zero)
    else total shares / Score.ratio shares.length 1
  { level := verdict matchShare meanAssertionMatch extra.length
    matched
    missing := alignment.missing.map Scenario.name
    extra
    assertionMatch
    coverageDelta := coverageDelta reference.assertionCount candidate.assertionCount
    matchShare
    meanAssertionMatch }

/-- Compares two plans; one that cannot be compared is refused, the reference first. -/
def compare (reference candidate : Plan) : Except Failure (Comparison α) :=
  match reference.defect?, candidate.defect? with
  | some cause, _ => .error (.context "reference specification" (.comparison cause))
  | none, some cause => .error (.context "candidate specification" (.comparison cause))
  | none, none => .ok (compareSound reference candidate)

end Concord.Equivalence
