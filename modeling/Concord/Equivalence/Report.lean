/-
Reports of comparisons: their form as JSON and as a listing.
-/
import Concord.Equivalence.Verdict
import Concord.Json.Decode
import Concord.Number.Fixed

namespace Concord.Equivalence

open Json

/-- A comparison as it is reported. -/
structure Report where
  level : Level
  matched : List (Pair Float)
  missing : List String
  extra : List String
  assertionMatch : KeyMap Float
  coverageDelta : Float
  details : KeyMap Datum := .empty

/-- The report of the comparison of two plans. -/
def Report.ofComparison (reference candidate : Plan) (c : Comparison Float) : Report where
  level := c.level
  matched := c.matched
  missing := c.missing
  extra := c.extra
  assertionMatch := c.assertionMatch
  coverageDelta := c.coverageDelta
  details := KeyMap.ofList [
    ("reference", .str reference.name),
    ("candidate", .str candidate.name),
    ("match_pct", .float c.matchShare),
    ("avg_assertion_match", .float c.meanAssertionMatch),
    ("reference_scenarios", .int reference.scenarios.length),
    ("candidate_scenarios", .int candidate.scenarios.length),
    ("reference_assertions", .int reference.assertionCount),
    ("candidate_assertions", .int candidate.assertionCount)]

/-- The report of a comparison, or why there is none. -/
def report (reference candidate : Plan) : Except Failure Report :=
  (compare reference candidate).map (Report.ofComparison reference candidate)

namespace Encode

open Json.Encode

def pair (p : Pair Float) : Json :=
  .obj (member "reference" (.str p.reference) ++ member "candidate" (.str p.candidate) ++
    member "score" (.float p.score))

def report (r : Report) : Json :=
  .obj (member "level" (.str r.level.name) ++ member "matched" (list pair r.matched) ++
    member "missing" (strings r.missing) ++ member "extra" (strings r.extra) ++
    member "assertion_match" (map .float r.assertionMatch) ++
    member "coverage_delta" (.float r.coverageDelta) ++
    member "details" (map Datum.json r.details))

end Encode

namespace Decode

open Json.Decode

def pair : Decoder (Pair Float) :=
  record ["reference", "candidate", "score"] do
    let reference ← field "reference" string
    let candidate ← field "candidate" string
    let score ← field "score" float
    return { reference, candidate, score }

def report : Decoder Report :=
  record ["level", "matched", "missing", "extra", "assertion_match", "coverage_delta",
      "details"] do
    let level ← field "level" (variant Level.ofName?)
    let matched ← field "matched" (list pair)
    let missing ← field "missing" (list string)
    let extra ← field "extra" (list string)
    let assertionMatch ← field "assertion_match" (map float)
    let coverageDelta ← field "coverage_delta" float
    let details ← fieldOr "details" .empty (map datum)
    return { level, matched, missing, extra, assertionMatch, coverageDelta, details }

end Decode

/-- The text of a report as it is stored. -/
def Report.text (r : Report) : String := (Encode.report r).pretty

/-- The line of an aligned pair. -/
def Report.pairLine (r : Report) (p : Pair Float) : String :=
  let share := (r.assertionMatch.get? p.reference).getD 0
  (if p.reference == p.candidate then "  = " ++ p.reference
    else "  ~ " ++ p.reference ++ " -> " ++ p.candidate) ++
    " (score " ++ Number.fixedText 2 false p.score ++ ", assertions " ++
    Number.fixedText 0 false (share * 100) ++ "%)\n"

/-- A listing of what agrees, what is missing and what is extra. -/
def Report.listing (r : Report) : String :=
  "Equivalence: " ++ r.level.name ++ " (coverage delta " ++
    Number.fixedText 1 true (r.coverageDelta * 100) ++ "%)\n" ++
  String.join (r.matched.map r.pairLine) ++
  String.join (r.missing.map fun name => "  - " ++ name ++ "\n") ++
  String.join (r.extra.map fun name => "  + " ++ name ++ "\n") ++
  toString r.matched.length ++ " matched, " ++ toString r.missing.length ++ " missing, " ++
    toString r.extra.length ++ " extra\n"

end Concord.Equivalence
