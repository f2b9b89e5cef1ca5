/-
How a batch is to be run: how many workers, which files, and how strict.
-/
import Concord.Failure
import Concord.Glob
import Concord.Json.Decode
import Concord.Json.Reader

namespace Concord

/-- Settings of a batch. -/
structure Config where
  /-- The number of workers; zero leaves it to the machine. -/
  workers : Nat := 0
  /-- Files of more bytes are left out. -/
  maxFileSize : Nat := 1048576
  /-- Patterns of the files to read. -/
  included : List String := ["**/*.py", "**/*.rs", "**/*.ir.json"]
  /-- Patterns of files and directories to leave out. -/
  excluded : List String := [".git", "node_modules", "__pycache__", "target", ".venv", "venv"]
  /-- Whether a comparison must find the suites equivalent. -/
  strict : Bool := false
deriving DecidableEq, Repr, Inhabited

namespace Config

/-- The file in which a project keeps its settings. -/
def fileName : String := ".xcanon.json"

/-- The number of workers on a machine that runs `available` at once. -/
def workersOn (c : Config) (available : Nat) : Nat := if 0 < c.workers then c.workers else available

/-- The failure of a pattern that cannot be read. -/
def badGlob (pattern : String) (defect : Glob.Defect) : Failure :=
  .config (.badGlob pattern ("error parsing glob '" ++ pattern ++ "': " ++ defect.message))

/-- The first pattern that cannot be read. -/
def globFailure? : List String → Option Failure
  | [] => none
  | p :: patterns =>
    match Glob.read p with
    | .error defect => some (badGlob p defect)
    | .ok _ => globFailure? patterns

/-- Why the settings cannot be used. -/
def failure? (c : Config) : Option Failure :=
  if c.maxFileSize = 0 then some (.config .emptyLimit) else globFailure? (c.included ++ c.excluded)

namespace Decode

open Json.Decode

/-- Settings from a value; every one may be missing, and there are no others. -/
def config : Json.Decoder Config :=
  closedRecord ["workers", "max_file_size", "include", "exclude", "strict"] do
    let usual : Config := {}
    let workers ← fieldOr "workers" usual.workers nat
    let maxFileSize ← fieldOr "max_file_size" usual.maxFileSize nat
    let included ← fieldOr "include" usual.included (list string)
    let excluded ← fieldOr "exclude" usual.excluded (list string)
    let strict ← fieldOr "strict" usual.strict bool
    return { workers, maxFileSize, included, excluded, strict }

end Decode

namespace Encode

open Json.Encode

def config (c : Config) : Json :=
  .obj (member "workers" (.int c.workers) ++ member "max_file_size" (.int c.maxFileSize) ++
    member "include" (strings c.included) ++ member "exclude" (strings c.excluded) ++
    member "strict" (.bool c.strict))

end Encode

/-- Settings from the text of a file. -/
def ofText (text : String) : Except Failure Config :=
  match (Json.read text).bind Decode.config with
  | none => .error (.config (.malformed "unexpected configuration"))
  | some c =>
    match c.failure? with
    | some failure => .error failure
    | none => .ok c

end Config

end Concord
