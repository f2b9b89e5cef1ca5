/-
Why a source cannot be read.
-/
import Concord.Failure
import Concord.Source.Entity

namespace Concord.Source

/-- Why a source cannot be read. -/
inductive Fault where
  | syntaxError (origin : String) (line column : Nat) (detail : String)
  | unsupported (format : Format)
  | invalid (entity : String) (defect : Schema.Defect)
  /-- Indentation would be cut off inside a character. Whatever reads the source is lost. -/
  | split
deriving DecidableEq, Repr

namespace Fault

/-- The refusal of an entity. -/
def ofDefect (e : Entity) (defect : Schema.Defect) : Fault := invalid e.reportName defect

def message : Fault → String
  | syntaxError origin line column detail => (Failure.syntaxError origin line column detail).message
  | unsupported format => (Failure.unsupported format).message
  | invalid entity defect => "Invalid entity '" ++ entity ++ "': " ++ defect.message
  | split => "a line is cut inside a character"

/-- Whether the fault is at a place in the source. -/
def isLocated : Fault → Bool
  | syntaxError .. => true
  | _ => false

/-- The failure of a program that reads the source; none if the program itself is lost. -/
def failure? : Fault → Option Failure
  | syntaxError origin line column detail => some (.syntaxError origin line column detail)
  | unsupported format => some (.unsupported format)
  | invalid entity defect => some (.schema entity defect)
  | split => none

end Fault

end Concord.Source
