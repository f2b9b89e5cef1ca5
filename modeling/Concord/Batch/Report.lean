/-
The outcome of a batch as JSON and as lines of text.
-/
import Concord.Batch.Basic

namespace Concord.Batch

open Json

namespace Encode

open Json.Encode

def problem (p : Problem) : Json :=
  .obj (member "path" (.str p.path) ++
    memberUnless p.entity.isNone "entity" (option .str p.entity) ++
    member "category" (.str p.failure.category.name) ++
    member "message" (.str p.failure.message))

/-- The counts of a result. -/
def summary (r : Result) : Json :=
  .obj (member "files" (.int r.files) ++ member "succeeded" (.int r.succeeded) ++
    member "failed" (.obj ((Category.all.filter fun c => 0 < r.failed c).map fun c =>
      (c.name, .int (r.failed c)))) ++
    member "skipped" (.int r.skipped))

/-- The members of a report. -/
def reportMembers (r : Result) : List (String × Json) :=
  member "entities" (list (fun s => Spec.Encode.document s.document) r.specifications) ++
    member "tests" (list Concord.Encode.plan r.plans) ++
    member "errors" (list problem r.problems) ++ member "summary" (summary r) ++
    member "usage" (Pattern.Encode.usage r.usage) ++ member "cancelled" (.bool r.cancelled)

def report (r : Result) : Json := .obj (reportMembers r)

end Encode

/-- The line of a specification. -/
def specificationLine (s : Specification) : String :=
  "entity " ++ s.qualifiedName ++ " (" ++ toString s.fields.length ++ " fields, " ++
    toString s.actions.length ++ " actions)" ++
    match s.tags.toList with
    | [] => ""
    | tags => " [" ++ ", ".intercalate (tags.map Pattern.Tag.name) ++ "]"

/-- The line of a plan. -/
def planLine (p : Plan) : String :=
  "tests " ++ p.name ++ " (" ++ p.focus.name ++ ", " ++ toString p.scenarios.length ++
    " scenarios, " ++ toString p.assertionCount ++ " assertions)"

/-- The line of a problem. -/
def Problem.line (p : Problem) : String :=
  "error " ++ p.path ++ ((p.entity.map fun e => " [" ++ e ++ "]").getD "") ++ " (" ++
    p.failure.category.name ++ "): " ++ p.failure.message

/-- A result as lines of text, the counts last. -/
def Result.listing (r : Result) : String :=
  "\n".intercalate (r.specifications.map specificationLine ++ r.plans.map planLine ++
    r.problems.map Problem.line ++
    [toString r.files ++ " files, " ++ toString r.succeeded ++ " succeeded, " ++
      toString r.totalFailed ++ " failed, " ++ toString r.skipped ++ " skipped"])

end Concord.Batch
