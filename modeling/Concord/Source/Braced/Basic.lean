/-
What is read from a language whose blocks stand in braces: declarations with the
notes in front of them, and bodies as their statements. The grammar is written
over a `Level`, the readers for whatever is nested in the part at hand.
-/
import Concord.Source.Braced.Lexer

namespace Concord.Source.Braced

open Reader

/-- What kind of value an expression without a semicolon leaves behind. -/
inductive Outcome where
  /-- The empty tuple. -/
  | unit
  /-- Control leaves the function. -/
  | leaving
  /-- An invocation of a macro and nothing else. -/
  | invocation
  /-- An expression that ends with a block. -/
  | block
  | value
deriving DecidableEq, Inhabited

/-- What a statement is to the body it stands in. -/
inductive Role where
  /-- An attribute of the next statement. -/
  | aside
  /-- A statement without any text of its own. -/
  | silent
  | ordinary
  /-- A statement that gives the body its value if it is the last. -/
  | result
deriving DecidableEq, Inhabited

/-- A statement of a body. -/
structure Line where
  role : Role
  extent : Extent
deriving Inhabited

/-- What stands directly in front of a declaration. -/
inductive Note where
  | attached (text : Text)
  /-- One line of documentation. -/
  | doc (line : Text)
deriving Inhabited

/-- A parameter: the receiver, or a pattern with a type. -/
inductive Formal where
  | receiver
  | typed (pattern type : Text)
  | other
deriving Inhabited

/-- A function with a body. -/
structure Function where
  name : Name
  notes : List Note
  /-- The words in front of it. -/
  modifiers : Text
  formals : List Formal
  returns : Option Text
  body : List Line

/-- A declaration. -/
inductive Item where
  /-- A record; only one with named fields has any. -/
  | record (notes : List Note) (line : Nat) (name : Name) (fields : Option (List (Name × Text)))
  /-- An enumeration; it has values if no variant holds data. -/
  | choice (name : Text) (variants : Option (List Text))
  | implementation (interface : Option Text) (type : Text) (functions : List Function)
  | space (items : List Item)
  | function (f : Function)
  | other
deriving Inhabited

/-- The readers for what is nested. -/
structure Level where
  type : Reader Unit
  pattern : Reader Unit
  /-- A pattern without alternatives of its own. -/
  single : Reader Unit
  /-- An expression; the flag tells whether a brace behind a name belongs to it. -/
  expression : (braces : Bool) → Reader Outcome
  /-- An expression that a statement or a case consists of. -/
  standing : Reader Outcome
  block : Reader (List Line)
  /-- The declarations up to a closing brace. -/
  items : Reader (List Item)

/-- The level in which nothing can be nested. -/
def Level.none : Level :=
  ⟨failure, failure, failure, fun _ => failure, failure, failure, failure⟩

/-! ## Tokens -/

/-- Succeeds if the next token stands directly behind the last one. -/
def adjacent : Reader Unit := fun s =>
  match s.rest with
  | t :: _ => if t.start == s.stop then some ((), s) else none
  | [] => none

def lifetime : Reader Token := satisfy (·.kind == .lifetime)

/-- A literal; a sign may stand in front of a number. -/
def constant : Reader Unit := do
  if ← trySymbol "-" then
    let _ ← satisfy (·.kind == .number)
  else
    let _ ← satisfy fun t => t.kind == .number || t.kind == .quoted || t.isWord "true" ||
      t.isWord "false"

/-- Words that cannot be the name of anything. -/
def reserved : List String :=
  ["as", "break", "const", "continue", "else", "enum", "extern", "fn", "for", "if", "impl", "in",
    "let", "loop", "match", "mod", "move", "mut", "pub", "ref", "return", "static", "struct",
    "trait", "type", "unsafe", "use", "where", "while", "true", "false", "async", "await", "dyn"]

/-- A name. -/
def name : Reader Name := do
  let t ← next
  guard !(reserved.any t.isWord)
  if h : t.kind = .word then return t.name h else failure

def closes (t : Token) : Bool := t.isSymbol ")" || t.isSymbol "]" || t.isSymbol "\x7d"

/-- A token, or any tokens between matching brackets. -/
def tree : (fuel : Nat) → Reader Unit
  | 0 => failure
  | n + 1 => do
    let t ← satisfy fun t => t.kind != .ending && !closes t
    let inside := fun (close : String) => do
      let _ ← many (tree n)
      let _ ← symbol close
    if t.isSymbol "(" then inside ")"
    else if t.isSymbol "[" then inside "]"
    else if t.isSymbol "\x7b" then inside "\x7d"

/-- Any tokens in brackets. -/
def group : Reader Unit := do
  ahead fun t => t.isSymbol "(" || t.isSymbol "[" || t.isSymbol "\x7b"
  tree ((← size) + 1)

/-- An attribute of what follows. -/
def outerMark : Reader Unit := do
  let _ ← symbol "#"
  ahead (·.isSymbol "[")
  group

/-- An attribute of what it stands in. -/
def innerMark : Reader Unit := do
  let _ ← symbol "#"
  let _ ← symbol "!"
  ahead (·.isSymbol "[")
  group

/-- Attributes of what follows. -/
def marks : Reader Unit := do
  let _ ← many outerMark

end Concord.Source.Braced
