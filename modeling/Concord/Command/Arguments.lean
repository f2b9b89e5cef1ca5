/-
What the arguments of the program ask for. A word that begins with a hyphen is an
option; the value of an option is the rest of its word or the word after it; after
two hyphens alone no word is an option.
-/
import Concord.Text.Cut

namespace Concord.Command

open Text

/-- How an answer is laid out. -/
inductive Layout where
  | json
  | text
deriving DecidableEq, Repr, Inhabited

def Layout.ofName? : String → Option Layout
  | "json" => some .json
  | "text" => some .text
  | _ => none

/-- The verbs of the program. -/
inductive Verb where
  | map
  | compare
deriving DecidableEq, Repr

def Verb.ofName? : String → Option Verb
  | "map" => some .map
  | "compare" => some .compare
  | _ => none

/-- The options of a verb. -/
inductive Switch where
  | output
  | layout
  | config
  | strict
  | help
deriving DecidableEq, Repr

namespace Switch

/-- The long names of the options of a verb. -/
def ofLong? : Verb → String → Option Switch
  | _, "format" => some layout
  | _, "config" => some config
  | _, "help" => some help
  | .map, "output" => some output
  | .compare, "strict" => some strict
  | _, _ => none

/-- The short names of the options of a verb. -/
def ofShort? : Verb → Char → Option Switch
  | _, 'c' => some config
  | _, 'h' => some help
  | .map, 'o' => some output
  | _, _ => none

def takesValue : Switch → Bool
  | output => true
  | layout => true
  | config => true
  | strict => false
  | help => false

end Switch

/-- What one word is. -/
inductive Word where
  | plain (text : String)
  | switch (s : Switch) (value : Option String)
  | unknown
deriving DecidableEq, Repr

/-- Sorts a word of a verb. -/
def Word.of (verb : Verb) (word : String) : Word :=
  match word.toList with
  | '-' :: '-' :: rest =>
    let (name, value) := match cut? ['='] rest with
      | some (name, value) => (name, some (String.ofList value))
      | none => (rest, none)
    match Switch.ofLong? verb (String.ofList name) with
    | some s => .switch s value
    | none => .unknown
  | '-' :: c :: rest =>
    match Switch.ofShort? verb c with
    | some s =>
      if !s.takesValue || rest.isEmpty then .switch s none
      else .switch s (some (String.ofList ((dropPrefix? ['='] rest).getD rest)))
    | none => .unknown
  | _ => .plain word

/-- What the words of a verb have asked for so far. -/
structure Draft where
  /-- The words that are no options, the last first. -/
  words : List String := []
  output : Option String := none
  layout : Option Layout := none
  config : Option String := none
  strict : Bool := false
deriving DecidableEq, Repr

/-- Why reading the words ends early. -/
inductive Stop where
  | help
  | misuse
deriving DecidableEq, Repr

namespace Draft

def addWord (d : Draft) (word : String) : Except Stop Draft :=
  if word == "" then .error .misuse else .ok { d with words := word :: d.words }

/-- Sets an option that takes no value. -/
def set (d : Draft) : Switch → Except Stop Draft
  | .strict => if d.strict then .error .misuse else .ok { d with strict := true }
  | .help => .error .help
  | _ => .error .misuse

/-- Gives an option its value. No option may be given twice, and a path has a name. -/
def give (d : Draft) (s : Switch) (value : String) : Except Stop Draft :=
  match s with
  | .output =>
    if d.output.isSome || value == "" then .error .misuse else .ok { d with output := some value }
  | .config =>
    if d.config.isSome || value == "" then .error .misuse else .ok { d with config := some value }
  | .layout =>
    match d.layout, Layout.ofName? value with
    | none, some layout => .ok { d with layout := some layout }
    | _, _ => .error .misuse
  | _ => .error .misuse

/-- Whether a word can be the value of the option before it. -/
def isValue (word : String) : Bool := word == "-" || word.toList.head? != some '-'

/-- Reads the words of a verb. -/
def read (verb : Verb) (d : Draft) : List String → Except Stop Draft
  | [] => .ok d
  | word :: rest =>
    if word == "--" then rest.foldlM addWord d
    else
      match Word.of verb word with
      | .unknown => .error .misuse
      | .plain text => do read verb (← d.addWord text) rest
      | .switch s (some value) => do read verb (← d.give s value) rest
      | .switch s none =>
        if s.takesValue then
          match rest with
          | value :: rest => do
            if isValue value then read verb (← d.give s value) rest else .error .misuse
          | [] => .error .misuse
        else do read verb (← d.set s) rest

end Draft

/-- What the program is to do with files. -/
inductive Job where
  | map (paths : List String) (output : Option String) (layout : Layout) (config : Option String)
  | compare (reference candidate : String) (strict : Bool) (layout : Layout)
      (config : Option String)
deriving DecidableEq, Repr

/-- What the arguments ask for. -/
inductive Request where
  | job (j : Job)
  | version
  | help
  /-- The arguments make no sense. -/
  | misuse
deriving DecidableEq, Repr

namespace Request

/-- The request of a verb with all its words read. -/
def ofDraft (verb : Verb) (d : Draft) : Request :=
  match verb, d.words.reverse with
  | .map, first :: rest => job (.map (first :: rest) d.output (d.layout.getD .json) d.config)
  | .compare, [reference, candidate] =>
    job (.compare reference candidate d.strict (d.layout.getD .text) d.config)
  | _, _ => misuse

/-- The request of a verb with some words. -/
def ofWords (verb : Verb) (words : List String) : Request :=
  match Draft.read verb {} words with
  | .ok d => ofDraft verb d
  | .error .help => help
  | .error .misuse => misuse

/-- The request for help, of the program or of one verb. -/
def ofHelp : List String → Request
  | [] => help
  | [name] => if name == "help" || (Verb.ofName? name).isSome then help else misuse
  | _ => misuse

/-- The request that some arguments make. -/
def ofArguments : List String → Request
  | [] => misuse
  | first :: rest =>
    match Verb.ofName? first with
    | some verb => ofWords verb rest
    | none =>
      if first == "help" then ofHelp rest
      else if first == "--version" then version
      else if first == "--help" then help
      else
        match first.toList with
        | '-' :: 'V' :: _ => version
        | '-' :: 'h' :: _ => help
        | _ => misuse

end Request

end Concord.Command
