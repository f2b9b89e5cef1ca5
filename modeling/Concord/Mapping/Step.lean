/-
Statements to steps. The first rule that fits a statement decides, and a
statement that no rule fits is kept as it is.
-/
import Concord.Guard
import Concord.Spec.Step
import Concord.Statement.Dialect

namespace Concord.Mapping

open Text Statement Spec

/-- A text as part of a step: without receivers. -/
def ownText (t : Text) : String := String.ofList (Guard.withoutReceivers t)

/-- A statement kept as it is. -/
def kept (t : Text) : Step := .invoke (String.ofList (trim t)) true

/-- What a single statement gives up with: the value it returns or the error it raises. -/
def rejection? : Shape → Option (Option Text)
  | .returning value => some value
  | .raising error => some (some error)
  | _ => none

/-- What a conditional gives up with, if it only guards what follows it. A condition that binds names
guards nothing. -/
def guardError? (d : Dialect) (condition : Text) (yes : List Text) (otherwise : Option (List Text)) :
    Option (Option Text) :=
  match yes, otherwise with
  | [only], none => if Guard.isBinding condition then none else rejection? (d.decompose only)
  | _, _ => none

/-- The step of one statement, `fuel` deep at most. -/
def stepWithin (d : Dialect) (fields : List String) : (fuel : Nat) → Text → Step
  | 0, t => kept t
  | fuel + 1, t =>
    match d.decompose t with
    | .assignment target value =>
      match d.ownField? target with
      | some field =>
        if fields.contains (String.ofList field) then
          .mutate (String.ofList field) (ownText value)
        else kept t
      | none => kept t
    | .conditional condition yes otherwise =>
      match guardError? d condition yes otherwise with
      | some error => .validate (ownText (Guard.invert condition)) (error.map ownText)
      | none =>
        .branch (ownText condition) (yes.map (stepWithin d fields fuel))
          ((otherwise.getD []).map (stepWithin d fields fuel))
    | .loop range body => .iterate (ownText range) (body.map (stepWithin d fields fuel))
    | .call call => .invoke (ownText call) false
    | .returning value => .give (value.map ownText)
    | .raising error => .raise (ownText error)
    | .unknown _ => kept t

/-- The step of one statement. The statements inside a statement are shorter than it, so its
length bounds their depth. -/
def stepOf (d : Dialect) (fields : List String) (t : Text) : Step :=
  stepWithin d fields (t.length + 1) t

/-- The steps of a body. -/
def stepsOf (d : Dialect) (fields : List String) (body : List String) : List Step :=
  body.map fun s => stepOf d fields s.toList

end Concord.Mapping
