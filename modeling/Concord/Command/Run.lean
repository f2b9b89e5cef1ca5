/-
The program as a function: from the files there are and the arguments to what is
printed, what is written and the exit code. The code is 0 for success, 1 for a batch
with problems or a comparison that is not accepted, and 2 for input that cannot be
used.
-/
import Concord.Batch.Report
import Concord.Batch.Run
import Concord.Command.Arguments
import Concord.Config.Discover
import Concord.Equivalence.Report

namespace Concord

/-- The texts of a failure and of those inside it, from the outside in. -/
def Failure.chain : Failure → List String
  | .context text inner => (Failure.context text inner).message :: inner.chain
  | .io reason => [(Failure.io reason).message, reason]
  | .json detail => [(Failure.json detail).message, detail]
  | failure => [failure.message]

namespace Command

/-- What a run leaves behind. -/
structure Outcome where
  exit : Nat := 0
  stdout : String := ""
  stderr : String := ""
  /-- The file that is written, with its text. -/
  written : Option (String × String) := none
deriving DecidableEq, Repr, Inhabited

/-- The files after a run. -/
def Outcome.filesAfter (o : Outcome) (t : FileTree) : FileTree :=
  match o.written with
  | none => t
  | some (path, text) => (t.write path text).toOption.getD t

/-- What a run finds: the files, how many workers the machine runs at once, and the time. -/
structure World where
  files : FileTree
  available : Nat := 1
  now : String := ""

/-- Why a run ends without an answer. -/
inductive Obstacle where
  | unreadable (path : String) (fault : FileTree.Fault)
  | unwritable (path : String) (fault : FileTree.Fault)
  | badPlan (path detail : String)
  | badSource (path : String) (fault : Source.Fault)
  | noSuite (path : String)
  | noCases (path : String)
  | failure (f : Failure)

namespace Obstacle

/-- The texts of an obstacle, from the outside in. -/
def chain : Obstacle → List String
  | unreadable path fault => ["cannot read " ++ path, fault.message]
  | unwritable path fault => ["cannot write " ++ path, fault.message]
  | badPlan path detail => ("invalid test specification " ++ path) :: (Failure.json detail).chain
  | badSource path fault => ["cannot parse " ++ path, fault.message]
  | noSuite path => [path ++ " contains no test module"]
  | noCases path => [path ++ " contains no test cases"]
  | failure f => f.chain

/-- The exit code of a run that meets an obstacle; a source on which the reader is lost takes the
program with it. -/
def exit : Obstacle → Nat
  | badSource _ .split => 101
  | _ => 2

/-- The outcome of a run that meets an obstacle. -/
def outcome (o : Obstacle) : Outcome :=
  { exit := o.exit, stderr := "Error: " ++ ": ".intercalate o.chain ++ "\n" }

end Obstacle

def version : String := "1.0.0"

/-- Whether a path names a stored plan: no source, but JSON by its extension. -/
def isStoredPlan (path : String) : Bool :=
  Source.Format.ofPath path == .unknown &&
    (Path.extension path.toList).map Char.toLower == "json".toList

/-- The plan in a file: stored, or made of the first test module of a source. -/
def loadPlan (t : FileTree) (path : String) : Except Obstacle Plan := do
  let content ← (t.readText path).mapError (.unreadable path)
  if isStoredPlan path then
    match (Json.read content).bind Decode.plan with
    | some plan => return plan
    | none => throw (.badPlan path "unexpected test specification")
  let units ← (Source.Registry.builtIn.parsePath path content).mapError (.badSource path)
  match units.findSome? Source.Unit.suite? with
  | none => throw (.noSuite path)
  | some suite =>
    if suite.cases.isEmpty then throw (.noCases path)
    return .ofSuite suite

/-- The settings of a batch: those of the given file, or those for the first path. -/
def batchConfig (t : FileTree) (paths : List String) : Option String → Except Failure Config
  | some file => Config.ofFile t file
  | none =>
    match paths with
    | first :: _ => Config.forPath t first
    | [] => .ok {}

/-- The batch over some paths. -/
def batch (w : World) (c : Config) (paths : List String) : Batch.Result :=
  Batch.runPaths (.ofRegistry .builtIn) (.steady (c.workersOn w.available)) (Walk.ofTree w.files c)
    paths

/-- A batch as it is printed. -/
def batchText (now : String) (layout : Layout) (r : Batch.Result) : String :=
  match layout with
  | .json =>
    (Json.obj (Batch.Encode.reportMembers r ++
      [("generated_at", .str now), ("version", .str version)])).settle.pretty
  | .text => r.listing

/-- Maps what is found under some paths. -/
def runMap (w : World) (paths : List String) (output : Option String) (layout : Layout)
    (config : Option String) : Except Obstacle Outcome := do
  let c ← (batchConfig w.files paths config).mapError .failure
  let r := batch w c paths
  let exit := if r.hasProblems then 1 else 0
  let text := batchText w.now layout r
  match output with
  | none => return { exit, stdout := text ++ "\n" }
  | some path =>
    match w.files.write path text with
    | .ok _ => return { exit, written := some (path, text) }
    | .error fault => throw (.unwritable path fault)

/-- A comparison as it is printed. -/
def comparisonText (strict : Bool) (layout : Layout) (r : Equivalence.Report) : String :=
  match layout with
  | .json => r.text ++ "\n"
  | .text =>
    r.listing ++
      if strict && !r.level.passes then "strict: " ++ r.level.name ++ " is not accepted\n" else ""

/-- Compares the plans of two files. -/
def runCompare (w : World) (reference candidate : String) (strict : Bool) (layout : Layout)
    (config : Option String) : Except Obstacle Outcome := do
  let c ← match config with
    | some file => (Config.ofFile w.files file).mapError Obstacle.failure
    | none => pure {}
  let strict := strict || c.strict
  let a ← loadPlan w.files reference
  let b ← loadPlan w.files candidate
  let r ← (Equivalence.report a b).mapError Obstacle.failure
  return { exit := r.level.exitCode strict, stdout := comparisonText strict layout r }

def runJob (w : World) : Job → Except Obstacle Outcome
  | .map paths output layout config => runMap w paths output layout config
  | .compare reference candidate strict layout config =>
    runCompare w reference candidate strict layout config

/-- How the program is used. -/
def usage : String :=
  "Normalize cross-language models and judge test-suite equivalence.\n\n" ++
  "Usage: xcanon map [OPTIONS] <PATH>...\n" ++
  "       xcanon compare [OPTIONS] <REFERENCE> <CANDIDATE>\n\n" ++
  "Options:\n" ++
  "  -o, --output <OUTPUT>  Write the output of map here instead of stdout\n" ++
  "      --strict           Fail compare unless the verdict is EXACT or STRONG\n" ++
  "      --format <FORMAT>  Output format [possible values: json, text]\n" ++
  "  -c, --config <CONFIG>  Configuration file\n" ++
  "  -h, --help             Print help\n" ++
  "  -V, --version          Print version\n"

/-- Runs the program. -/
def run (w : World) (arguments : List String) : Outcome :=
  match Request.ofArguments arguments with
  | .version => { stdout := "xcanon " ++ version ++ "\n" }
  | .help => { stdout := usage }
  | .misuse => { exit := 2, stderr := "error: unexpected arguments\n\n" ++ usage }
  | .job j =>
    match runJob w j with
    | .ok outcome => outcome
    | .error obstacle => obstacle.outcome

end Command

end Concord
