/-
Readers of sources by format. The built-in ones read models and test modules of a
language with indented blocks and models of a language with braces, each from the tree
that a grammar gives, and units that are already written as JSON.
-/
import Concord.Json.Reader
import Concord.Source.Braced.Model
import Concord.Source.Grammar
import Concord.Source.Indented.Tests
import Concord.Source.Unit

namespace Concord.Source

/-- A reader of sources: from a text and where it comes from to the units in it. -/
abbrev Parse := (source origin : String) → Except Fault (List Unit)

/-- Reads the entities of a model in indented blocks. -/
def readIndentedModel (g : Grammar) : Parse := fun source origin =>
  match g.statements source origin with
  | .error fault => .error fault
  | .ok statements =>
    match Indented.entities? origin statements with
    | none => .error .split
    | some entities => .ok (entities.map .entity)

/-- Reads a test module in indented blocks. -/
def readIndentedTests (g : Grammar) : Parse := fun source origin =>
  match g.statements source origin with
  | .error fault => .error fault
  | .ok statements =>
    match Indented.suite? origin statements with
    | none => .error .split
    | some suite => .ok [.suite suite]

/-- Reads the entities of a model in braces. -/
def readBracedModel (g : Grammar) : Parse := fun source origin =>
  match g.items source origin with
  | .error fault => .error fault
  | .ok items =>
    match Braced.entities? origin items with
    | none => .error .split
    | some entities => .ok (entities.map .entity)

/-- The first defect among the entities of some units. -/
def firstFault? : List Unit → Option Fault
  | [] => none
  | .entity e :: rest => (e.defect?.map (Fault.ofDefect e)).or (firstFault? rest)
  | .suite _ :: rest => firstFault? rest

/-- Reads one unit or a list of units that are written as JSON. -/
def readUnits : Parse := fun source origin =>
  match Json.read source with
  | none => .error (.syntaxError origin 0 0 "expected value")
  | some json =>
    match (Json.Decode.list Decode.unit json).or ((Decode.unit json).map fun u => [u]) with
    | none =>
      .error (.syntaxError origin 0 0 "data did not match any variant of untagged enum Document")
    | some units =>
      match firstFault? units with
      | some fault => .error fault
      | none => .ok units

/-- Readers by format. -/
structure Registry where
  readers : List (Format × Parse)

namespace Registry

def empty : Registry := ⟨[]⟩

/-- The readers that are always there, over the trees of a grammar. -/
def ofGrammar (g : Grammar) : Registry :=
  ⟨[(.python, readIndentedModel g), (.pytest, readIndentedTests g), (.rust, readBracedModel g),
    (.ir, readUnits)]⟩

def builtIn : Registry := ofGrammar .ordinary

/-- The reader of a format. -/
def get? (r : Registry) (format : Format) : Option Parse :=
  (r.readers.find? (·.1 == format)).map (·.2)

/-- Gives a format a reader in place of the one it had. -/
def register (r : Registry) (format : Format) (parse : Parse) : Registry :=
  ⟨(format, parse) :: r.readers.filter (·.1 != format)⟩

def supports (r : Registry) (format : Format) : Bool := (r.get? format).isSome

/-- The formats with a reader, in the order of all formats. -/
def formats (r : Registry) : List Format := Format.all.filter r.supports

/-- Reads a source of the given format. -/
def parse (r : Registry) (format : Format) : Parse := fun source origin =>
  match r.get? format with
  | some read => read source origin
  | none => .error (.unsupported format)

/-- Reads a file in the format that its path shows. -/
def parsePath (r : Registry) (path source : String) : Except Fault (List Unit) :=
  r.parse (Format.ofPath path) source path

/-- The formats as one line of text. -/
def text (r : Registry) : String :=
  "ParserRegistry \x7b formats: [" ++ ", ".intercalate (r.formats.map Format.name) ++ "] \x7d"

end Registry

end Concord.Source
