/-
Everything that can go wrong, as causes, and the wording of each.
-/
import Concord.Schema
import Concord.Source.Format

namespace Concord

/-- Why an entity cannot be mapped. -/
inductive MappingCause where
  | unresolvedType (raw field : String)
  | unknownTarget (target field : String)
deriving DecidableEq, Repr

def MappingCause.message : MappingCause → String
  | unresolvedType raw field => "unresolved type '" ++ raw ++ "' for field '" ++ field ++ "'"
  | unknownTarget target field =>
    "unknown reference target '" ++ target ++ "' for field '" ++ field ++ "'"

/-- Why two test specifications cannot be compared. -/
inductive ComparisonCause where
  | emptyScenarioName (suite : String) (index : Nat)
  | duplicateScenario (suite scenario : String)
  | missingError (suite target scenario : String)
deriving DecidableEq, Repr

def ComparisonCause.message : ComparisonCause → String
  | emptyScenarioName suite index =>
    "'" ++ suite ++ "': scenario #" ++ toString index ++ " has an empty name"
  | duplicateScenario suite scenario => "'" ++ suite ++ "': duplicate scenario '" ++ scenario ++ "'"
  | missingError suite target scenario =>
    "'" ++ suite ++ "': raises assertion on '" ++ target ++ "' in scenario '" ++ scenario ++
      "' has no error identifier"

/-- Why a configuration cannot be used. -/
inductive ConfigCause where
  /-- The text is no configuration. -/
  | malformed (detail : String)
  | emptyLimit
  | unreadable (path reason : String)
  | badGlob (pattern reason : String)
deriving DecidableEq, Repr

def ConfigCause.message : ConfigCause → String
  | malformed detail => detail
  | emptyLimit => "max_file_size must be positive"
  | unreadable path reason => "cannot read " ++ path ++ ": " ++ reason
  | badGlob pattern reason => "invalid glob '" ++ pattern ++ "': " ++ reason

/-- A failure of any part of the program. -/
inductive Failure where
  | syntaxError (origin : String) (line column : Nat) (detail : String)
  | unsupported (format : Source.Format)
  | mapping (entity : String) (cause : MappingCause)
  | schema (entity : String) (defect : Schema.Defect)
  | comparison (cause : ComparisonCause)
  | io (reason : String)
  | json (detail : String)
  | config (cause : ConfigCause)
  | context (text : String) (inner : Failure)
deriving DecidableEq, Repr

/-- The coarse kinds of failure that are counted. -/
inductive Category where
  | syntaxErrors
  | mapping
  | schema
  | comparisonInput
  | io
  | config
deriving DecidableEq, Repr

namespace Category

def all : List Category := [syntaxErrors, mapping, schema, comparisonInput, io, config]

def name : Category → String
  | syntaxErrors => "syntax"
  | mapping => "mapping"
  | schema => "schema"
  | comparisonInput => "comparison-input"
  | io => "io"
  | config => "config"

end Category

namespace Failure

def message : Failure → String
  | syntaxError origin line column detail =>
    "Syntax error in " ++ origin ++ " at " ++ toString line ++ ":" ++ toString column ++ ": " ++
      detail
  | unsupported format => "Unsupported format: " ++ format.tag
  | mapping entity cause => "Mapping error in entity '" ++ entity ++ "': " ++ cause.message
  | schema entity defect => "Schema error in '" ++ entity ++ "': " ++ defect.message
  | comparison cause => "Invalid comparison input: " ++ cause.message
  | io reason => "IO error: " ++ reason
  | json detail => "JSON error: " ++ detail
  | config cause => "Invalid configuration: " ++ cause.message
  | context text inner => text ++ ": " ++ inner.message

def category : Failure → Category
  | syntaxError .. => .syntaxErrors
  | unsupported _ => .syntaxErrors
  | json _ => .syntaxErrors
  | mapping .. => .mapping
  | schema .. => .schema
  | comparison _ => .comparisonInput
  | io _ => .io
  | config _ => .config
  | context _ inner => inner.category

/-- The entity that a failure is about. -/
def entity? : Failure → Option String
  | mapping entity _ => some entity
  | schema entity _ => some entity
  | context _ inner => inner.entity?
  | _ => none

end Failure

end Concord
