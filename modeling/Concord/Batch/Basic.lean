/-
What a batch gives: specifications, plans and problems, with counts of each kind of
outcome.
-/
import Concord.Failure
import Concord.Pattern.Usage
import Concord.Scenario.Basic

namespace Concord.Batch

/-- A failure with the path it happened at, and the entity it is about. -/
structure Problem where
  path : String
  entity : Option String
  failure : Failure
deriving DecidableEq, Repr

/-- The problem of a failure. The entity that the failure names comes before the given one. -/
def Problem.of (path : String) (entity : Option String) (failure : Failure) : Problem :=
  ⟨path, failure.entity?.or entity, failure⟩

/-- What a unit is mapped to. -/
inductive Product where
  | specification (s : Specification)
  | plan (p : Plan)

/-- The outcome of a batch. -/
structure Result where
  specifications : List Specification := []
  plans : List Plan := []
  problems : List Problem := []
  files : Nat := 0
  succeeded : Nat := 0
  failed : Category → Nat := fun _ => 0
  skipped : Nat := 0
  usage : Pattern.Usage := .empty
  cancelled : Bool := false

namespace Result

/-- Counts a failure. -/
def countFailure (r : Result) (c : Category) : Result :=
  { r with failed := fun x => if x = c then r.failed x + 1 else r.failed x }

/-- Adds a problem and counts it. -/
def fail (r : Result) (p : Problem) : Result :=
  { r.countFailure p.failure.category with problems := r.problems ++ [p] }

/-- Counts an item that was left alone or lost. -/
def skip (r : Result) : Result := { r with skipped := r.skipped + 1 }

/-- Adds what a unit was mapped to. -/
def add (r : Result) : Product → Result
  | .specification s =>
    { r with
      specifications := r.specifications ++ [s]
      succeeded := r.succeeded + 1
      usage := r.usage.applyAll (Pattern.eventsOf s) }
  | .plan p => { r with plans := r.plans ++ [p], succeeded := r.succeeded + 1 }

def totalFailed (r : Result) : Nat := (Category.all.map r.failed).foldr (· + ·) 0

def hasProblems (r : Result) : Bool := !r.problems.isEmpty

/-- The first specification of an entity. -/
def specification? (r : Result) (entity : String) : Option Specification :=
  r.specifications.find? (·.entity == entity)

end Result

end Concord.Batch
