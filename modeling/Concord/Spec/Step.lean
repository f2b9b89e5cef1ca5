/-
The steps of an action, in a form that no source format shows through.
-/
namespace Concord.Spec

/-- One step of an action. -/
inductive Step where
  /-- What must hold for the action to go on, and what happens otherwise. -/
  | validate (condition : String) (error : Option String)
  | mutate (field value : String)
  /-- A call of anything outside the entity; an unclassified one is a statement kept as it was. -/
  | invoke (call : String) (unclassified : Bool)
  | branch (condition : String) (yes otherwise : List Step)
  | iterate (range : String) (body : List Step)
  | raise (error : String)
  | give (value : Option String)
deriving Repr, Inhabited

namespace Step

def kind : Step → String
  | validate .. => "validate"
  | mutate .. => "mutate-field"
  | invoke .. => "invoke-external"
  | branch .. => "branch"
  | iterate .. => "iterate"
  | raise .. => "raise"
  | give .. => "return"

def isUnclassified : Step → Bool
  | invoke _ unclassified => unclassified
  | _ => false

mutual

/-- Equality of steps, part by part. -/
def decEq : (a b : Step) → Decidable (a = b)
  | .validate a b, .validate c d => decidable_of_iff (a = c ∧ b = d) (by simp)
  | .mutate a b, .mutate c d => decidable_of_iff (a = c ∧ b = d) (by simp)
  | .invoke a b, .invoke c d => decidable_of_iff (a = c ∧ b = d) (by simp)
  | .branch a y n, .branch b z m =>
    match (inferInstance : Decidable (a = b)), decEqList y z, decEqList n m with
    | isTrue h, isTrue hy, isTrue hn => isTrue (h ▸ hy ▸ hn ▸ rfl)
    | isFalse h, _, _ => isFalse fun e => h (Step.branch.inj e).1
    | _, isFalse h, _ => isFalse fun e => h (Step.branch.inj e).2.1
    | _, _, isFalse h => isFalse fun e => h (Step.branch.inj e).2.2
  | .iterate a y, .iterate b z =>
    match (inferInstance : Decidable (a = b)), decEqList y z with
    | isTrue h, isTrue hy => isTrue (h ▸ hy ▸ rfl)
    | isFalse h, _ => isFalse fun e => h (Step.iterate.inj e).1
    | _, isFalse h => isFalse fun e => h (Step.iterate.inj e).2
  | .raise a, .raise b => decidable_of_iff (a = b) (by simp)
  | .give a, .give b => decidable_of_iff (a = b) (by simp)
  | .validate .., .mutate .. | .validate .., .invoke .. | .validate .., .branch ..
  | .validate .., .iterate .. | .validate .., .raise .. | .validate .., .give ..
  | .mutate .., .validate .. | .mutate .., .invoke .. | .mutate .., .branch ..
  | .mutate .., .iterate .. | .mutate .., .raise .. | .mutate .., .give ..
  | .invoke .., .validate .. | .invoke .., .mutate .. | .invoke .., .branch ..
  | .invoke .., .iterate .. | .invoke .., .raise .. | .invoke .., .give ..
  | .branch .., .validate .. | .branch .., .mutate .. | .branch .., .invoke ..
  | .branch .., .iterate .. | .branch .., .raise .. | .branch .., .give ..
  | .iterate .., .validate .. | .iterate .., .mutate .. | .iterate .., .invoke ..
  | .iterate .., .branch .. | .iterate .., .raise .. | .iterate .., .give ..
  | .raise .., .validate .. | .raise .., .mutate .. | .raise .., .invoke ..
  | .raise .., .branch .. | .raise .., .iterate .. | .raise .., .give ..
  | .give .., .validate .. | .give .., .mutate .. | .give .., .invoke ..
  | .give .., .branch .. | .give .., .iterate .. | .give .., .raise .. =>
    isFalse (fun h => nomatch h)

def decEqList : (a b : List Step) → Decidable (a = b)
  | [], [] => isTrue rfl
  | [], _ :: _ => isFalse (fun h => nomatch h)
  | _ :: _, [] => isFalse (fun h => nomatch h)
  | a :: as, b :: bs =>
    match decEq a b, decEqList as bs with
    | isTrue h, isTrue hs => isTrue (h ▸ hs ▸ rfl)
    | isFalse h, _ => isFalse fun e => h (List.cons.inj e).1
    | _, isFalse hs => isFalse fun e => hs (List.cons.inj e).2

end

instance : DecidableEq Step := decEq

mutual

/-- A step and all steps inside it, from the outside in. -/
def all : Step → List Step
  | .branch c yes otherwise => .branch c yes otherwise :: (allOf yes ++ allOf otherwise)
  | .iterate o body => .iterate o body :: allOf body
  | s => [s]

/-- Some steps and all steps inside them. -/
def allOf : List Step → List Step
  | [] => []
  | s :: rest => s.all ++ allOf rest

end

end Step

/-- An action of an entity. -/
structure Action where
  name : String
  parameters : List String := []
  steps : List Step
deriving DecidableEq, Repr, Inhabited

end Concord.Spec
