/-
When two assertions say the same, and how many of one list have a counterpart in
another.
-/
import Concord.Assertion.Basic
import Concord.Equivalence.Score
import Concord.Guard
import Concord.Text.Case

namespace Concord.Equivalence

open Text

/-- Drops the marks of variables from the front of a target. -/
def dropMarks : Text → Text
  | '@' :: t => dropMarks t
  | 'v' :: '_' :: t => dropMarks t
  | 'p' :: '_' :: t => dropMarks t
  | t => t

/-- A target without receivers, letter case, marks of variables and blanks at its ends. -/
def normalTarget (target : Text) : Text :=
  trim (dropMarks (lower (trim (Guard.withoutReceivers (trim target)))))

/-- A JSON number as a double. -/
def number? : Json → Option Float
  | .int n => some (Number.nearestInt n)
  | .float x => some x
  | _ => none

mutual

/-- Equality of values in which numbers are compared as doubles. -/
def sameValue : Json → Json → Bool
  | .arr a, .arr b => sameItems a b
  | .obj a, .obj b => a.length == b.length && sameMembers a b
  | a, b =>
    match number? a, number? b with
    | some x, some y => x == y
    | _, _ => a.same b

def sameItems : List Json → List Json → Bool
  | [], [] => true
  | a :: as, b :: bs => sameValue a b && sameItems as bs
  | _, _ => false

/-- Whether every member has a counterpart of its name. -/
def sameMembers : List (String × Json) → List (String × Json) → Bool
  | [], _ => true
  | (key, a) :: as, bs =>
    (match Json.member? bs key with
      | some b => sameValue a b
      | none => false) && sameMembers as bs

end

/-- Whether two assertions say the same. -/
def sameAssertion (a b : Assertion) : Bool :=
  a.kind == b.kind && normalTarget a.target.toList == normalTarget b.target.toList &&
    sameValue a.expected.json b.expected.json

/-- The list without its first item for which `p` holds. -/
def removeFirst? {κ : Type} (p : κ → Bool) : List κ → Option (List κ)
  | [] => none
  | c :: rest => if p c then some rest else (removeFirst? p rest).map (c :: ·)

/-- The number of items that find a counterpart, each taking the first one left. -/
def hits {ρ κ : Type} (same : ρ → κ → Bool) : List ρ → List κ → Nat
  | [], _ => 0
  | r :: references, candidates =>
    match removeFirst? (same r) candidates with
    | some rest => hits same references rest + 1
    | none => hits same references candidates

/-- The share of reference assertions with a counterpart. Without any, only a candidate without
any matches. -/
def assertionRatio {α : Type} [Score α] (reference candidate : List Assertion) : α :=
  if reference.isEmpty then
    if candidate.isEmpty then Score.one else Score.zero
  else Score.ratio (hits sameAssertion reference candidate) reference.length

end Concord.Equivalence
