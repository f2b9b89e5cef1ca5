/-
Statements of a language with indented blocks. A block goes on while lines are
indented at least as far as its first one; a deeper line inside it is one more
statement of it. A block may be empty.

The comments behind the last statement of a block belong to it as far as they
stand on its last line or are indented like it.
-/
import Concord.Source.Indented.Expression
import Concord.Source.Indented.Lexer

namespace Concord.Source.Indented

open Reader

/-- A parameter of a function. -/
structure Formal where
  name : Text
  type : Option Text

/-- What a function says in front of its body. -/
structure Signature where
  name : Name
  /-- The line of the function itself, from zero. -/
  line : Nat
  isAsync : Bool
  /-- The parameters that have a name. -/
  formals : List Formal
  returns : Option Text

/-- What a class says in front of its body. -/
structure Heading where
  name : Name
  line : Nat
  /-- The bases with their brackets, empty if there are none. -/
  basesText : Text
  bases : List Text

/-- A statement. -/
inductive Statement where
  | assign (extent : Extent) (target : Expression) (type : Option Text) (value : Option Expression)
  /-- An expression that stands for itself; of several the first. -/
  | evaluate (extent : Extent) (first : Expression)
  | pass (extent : Extent)
  | function (extent : Extent) (decorations : List Text) (signature : Signature)
      (body : List Statement)
  | record (extent : Extent) (decorations : List Text) (heading : Heading) (body : List Statement)
  | other (extent : Extent)

namespace Statement

def extent : Statement → Extent
  | assign e _ _ _ => e
  | evaluate e _ => e
  | pass e => e
  | function e _ _ _ => e
  | record e _ _ _ => e
  | other e => e

end Statement

/-- Takes the comments in front of the next token as long as `keep` holds of them. -/
def absorb (keep : Comment → Bool) : Reader Unit := fun s =>
  match s.rest with
  | [] => some ((), s)
  | t :: rest =>
    let taken := t.comments.takeWhile keep
    let stop := (taken.getLast?.map (·.stop)).getD s.stop
    let t := { t with comments := t.comments.drop taken.length }
    some ((), { s with rest := t :: rest, stop })

/-- Takes the comments on the line of the last token. -/
def absorbLine : Reader Unit := absorb (·.own.isNone)

/-! ## Statements on one line -/

/-- Whether a statement may end in front of this token. -/
def endsStatement (t : Token) : Bool := t.fresh.isSome || t.isSymbol ";"

/-- Expressions, unless the statement ends. -/
def expressionsHere : Reader Unit := do
  if !endsStatement (← peek) then
    let _ ← expressions

def yieldExpression : Reader Expression := do
  let start ← word "yield"
  if (← maybe (wordHere "from")).isSome then
    let _ ← anExpression
  else expressionsHere
  return .other (start.textTo (← stop))

def dottedName : Reader Unit := do
  let _ ← sepBy anyWord (symbolHere ".")

/-- A name that is brought in, perhaps under another one. -/
def imported : Reader Unit := do
  dottedName
  let _ ← maybe (wordHere "as" *> anyWord)

/-- Names that are brought in, with commas between them. -/
def importedNames : Reader Unit := do
  imported
  let _ ← furtherItems imported

/-- The words that begin a statement of their own. -/
def keywordStatement (t : Token) : Reader Unit := do
  if t.isWord "import" then importedNames
  else if t.isWord "from" then
    let dots ← many (symbol "." <|> symbol "...")
    if !(← seesWord "import") then dottedName
    else guard !dots.isEmpty
    let _ ← word "import"
    if ← trySymbol "(" then
      let _ ← listUntil imported ")"
    else if !(← trySymbol "*") then
      importedNames
  else if t.isWord "return" then expressionsHere
  else if t.isWord "raise" then
    expressionsHere
    let _ ← maybe (wordHere "from" *> anExpression)
  else if t.isWord "del" then
    let _ ← expressions
  else if t.isWord "assert" then
    let _ ← sepBy anExpression (symbolHere ",")
  else if t.isWord "global" || t.isWord "nonlocal" then
    let _ ← sepBy anyWord (symbolHere ",")
  else guard (t.isWord "break" || t.isWord "continue")

def augmented : List String :=
  ["+=", "-=", "*=", "/=", "//=", "%=", "**=", ">>=", "<<=", "&=", "^=", "|=", "@="]

/-- Whether something can be assigned to an expression. -/
def isTarget : Expression → Bool
  | .literal _ => false
  | .call .. => false
  | _ => true

/-- An operator that changes its target. -/
def augmentation : Reader Token := satisfy fun t => joined t && augmented.any t.isSymbol

/-- The value of an assignment; a chain of assignments has no parts. -/
def assigned : Reader Expression := do
  let value := yieldExpression <|> expressions
  let (values, text) ← withText (sepBy value (symbolHere "=" <|> augmentation))
  match values with
  | [v] => return v
  | _ => return .other text

/-- An assignment or expressions that stand for themselves. -/
def evaluation (start : Token) : Reader Statement := do
  let target ← yieldExpression <|> expressions
  let t ← peek
  if joined t && t.isSymbol ":" then
    guard (isTarget target)
    let _ ← next
    let type ← textOf (starred anExpression)
    let value ← maybe (symbolHere "=" *> assigned)
    return .assign (← extentFrom start) target (some type) value
  else if joined t && t.isSymbol "=" then
    guard (isTarget target)
    let _ ← next
    let value ← assigned
    return .assign (← extentFrom start) target none (some value)
  else if joined t && augmented.any t.isSymbol then
    guard (isTarget target)
    let _ ← next
    let _ ← yieldExpression <|> expressions
    return .other (← extentFrom start)
  else
    let first := match target with
      | .row _ first => first
      | e => e
    return .evaluate (← extentFrom start) first

/-- Words that name a statement only if the rest of the line fits. -/
def softStatement (start : Token) : Reader Statement := do
  let t ← next
  guard (joined (← peek))
  if t.isWord "type" then
    let _ ← anExpression
    let _ ← symbolHere "="
    let _ ← anExpression
  else
    guard (t.isWord "print" || t.isWord "exec")
    let _ ← expressions
  guard (endsStatement (← peek))
  return .other (← extentFrom start)

def isKeyword (t : Token) : Bool :=
  t.kind == .word && ["import", "from", "return", "raise", "del", "assert", "global", "nonlocal",
    "break", "continue"].any t.isWord

/-- A statement that holds no block. -/
def simple : Reader Statement := do
  let start ← peek
  if start.isWord "pass" then
    let _ ← next
    return .pass (← extentFrom start)
  else if isKeyword start then
    let t ← next
    keywordStatement t
    return .other (← extentFrom start)
  else softStatement start <|> (do
    let s ← evaluation start
    guard (endsStatement (← peek))
    return s)

/-- Runs a reader and refuses lines that it went on to though they are indented less than
`level`. -/
def within {α : Type} (level : Nat) (r : Reader α) : Reader α := fun s => do
  let (a, s') ← r s
  let read := (s.rest.take (s.rest.length - s'.rest.length)).drop 1
  guard (read.all fun t => t.kind == .quoted || t.fresh.all (level ≤ ·))
  return (a, s')

/-- The statements of one line. -/
def simpleLine (level : Nat) : Reader (List Statement) := do
  let statements ← sepBy (within level simple) (symbolHere ";" *> ahead joined)
  let _ ← maybe (symbolHere ";")
  guard ((← peek).fresh.isSome)
  return statements

/-! ## Statements with blocks

The readers below take the reader of blocks, which stand behind a colon, as an argument. -/

/-- One parameter; those without a name of their own are left out. -/
def formal : Reader (Option Formal) :=
  (do
    let (_, text) ← withText do
      let _ ← symbol "*" <|> symbol "**"
      let _ ← anyWord
    if ← trySymbol ":" then
      let _ ← starred anExpression
      return none
    return some ⟨text, none⟩) <|>
  (do
    let _ ← symbol "*" <|> symbol "/"
    return none) <|>
  (do
    let name ← anyWord
    let type ← maybe (symbol ":" *> textOf (starred anExpression))
    let _ ← maybe (symbol "=" *> anExpression)
    return some ⟨name.text, type⟩) <|>
  (do
    let _ ← symbol "("
    let _ ← listUntil anExpression ")"
    let _ ← maybe (symbol "=" *> anExpression)
    return none)

/-- Parameters of a type in square brackets. -/
def typeParameters : Reader Unit := do
  if ← trySymbol "[" then
    let one : Reader Unit := do
      let _ ← starred anExpression
      let _ ← maybe (symbol ":" *> anExpression)
      let _ ← maybe (symbol "=" *> anExpression)
    let _ ← listUntil one "]"

section

variable (suite : Nat → Reader (List Statement))

/-- A clause that begins with a word and ends with a block. -/
def clause (level : Nat) (w : String) (header : Reader Unit) : Reader Unit := do
  let _ ← word w
  header
  let _ ← symbolHere ":"
  let _ ← suite level

/-- Whether the next line is one of those of a block of the given level. -/
def inLevel (level : Nat) : Reader Unit := ahead fun t => t.fresh.all (level ≤ ·)

/-- A clause that goes on a statement. -/
def further (level : Nat) (w : String) (header : Reader Unit) : Reader Unit :=
  inLevel level *> clause suite level w header

/-- Refuses a line of the given level that begins with one of these words: a clause that goes on
the statement, and yet none that could be read. -/
def noneOf (level : Nat) (words : List String) : Reader Unit :=
  ahead fun t => !(t.fresh.any (level ≤ ·) && words.any t.isWord)

/-- The block for when no clause before it applied, if there is one. -/
def otherwise (level : Nat) : Reader Unit :=
  further suite level "else" (pure ()) <|> noneOf level ["else"]

def anyExpression : Reader Unit := do
  let _ ← anExpression

def ifStatement (level : Nat) : Reader Unit := do
  clause suite level "if" anyExpression
  let _ ← many (further suite level "elif" anyExpression)
  noneOf level ["elif"]
  otherwise suite level

def loopStatement (level : Nat) : Reader Unit := do
  let header := do
    targets
    let _ ← word "in"
    let _ ← expressions
  clause suite level "while" anyExpression <|> clause suite level "for" header
  otherwise suite level

def tryStatement (level : Nat) : Reader Unit := do
  clause suite level "try" (pure ())
  let caught := do
    let _ ← maybe (symbolHere "*")
    if !(← seesSymbol ":") then
      let _ ← anExpression
      let _ ← maybe (symbolHere "," *> anExpression)
  let handlers ← many (further suite level "except" caught)
  noneOf level ["except"]
  otherwise suite level
  let last ← maybe (further suite level "finally" (pure ()))
  guard (!handlers.isEmpty || last.isSome)
  guard last.isSome <|> noneOf level ["finally"]

def withStatement (level : Nat) : Reader Unit :=
  clause suite level "with" do
    let _ ← expressions

/-- A choice between patterns; its cases stand in a block of their own. -/
def matchStatement (level : Nat) : Reader Unit := do
  let _ ← word "match"
  guard (joined (← peek))
  let _ ← expressions
  let _ ← symbolHere ":"
  let inner ← match (← peek).fresh with
    | some indent => do guard (level < indent); pure indent
    | none => failure
  let case := clause suite inner "case" do
    let _ ← expressions
    let _ ← maybe (wordHere "if" *> anExpression)
  case
  let _ ← many (inLevel inner *> case)
  ahead fun t => t.fresh.any (· < inner)
  absorb fun c => c.own.all (inner ≤ ·)

/-- A function, behind the word that makes it asynchronous. -/
def function (level : Nat) : Reader (Signature × List Statement) := do
  let start ← peek
  let isAsync ← tryWord "async"
  let _ ← word "def"
  let name ← anyName
  typeParameters
  let _ ← symbol "("
  let formals ← listUntil formal ")"
  let returns ← maybe (symbolHere "->" *> textOf anExpression)
  let _ ← symbolHere ":"
  let body ← suite level
  return (⟨name, start.place.line, isAsync, formals.filterMap id, returns⟩, body)

/-- A class. -/
def record (level : Nat) : Reader (Heading × List Statement) := do
  let start ← word "class"
  let name ← anyName
  typeParameters
  let (args, text) ← withText (maybe do
    let _ ← symbol "("
    arguments anExpression anOperand)
  let bases := (args.getD []).filterMap fun (k, e) => if k.isNone then some e.text else none
  let _ ← symbolHere ":"
  let body ← suite level
  return (⟨name, start.place.line, text, bases⟩, body)

/-- A function or a class with the decorations in front of it. -/
def definition (level : Nat) (start : Token) (decorations : List Text) : Reader Statement := do
  if ← seesWord "class" then
    let (heading, body) ← record suite level
    return .record (← extentFrom start) decorations heading body
  else
    let (signature, body) ← function suite level
    return .function (← extentFrom start) decorations signature body

/-- One decoration, with a comment on its line. -/
def decoration : Reader Text := textOf do
  let _ ← symbol "@"
  let _ ← anExpression
  guard ((← peek).fresh.isSome)
  absorbLine

/-- A statement with blocks that declares nothing. -/
def compound (level : Nat) : Reader Unit := do
  let start ← peek
  if start.isWord "if" then ifStatement suite level
  else if start.isWord "try" then tryStatement suite level
  else if start.isWord "with" then withStatement suite level
  else if start.isWord "match" then matchStatement suite level
  else loopStatement suite level

/-- The statements that begin at this place. -/
def statement (level : Nat) : Reader (List Statement) := do
  let start ← peek
  let nested := do
    compound suite level
    return [Statement.other (← extentFrom start)]
  let defined := fun decorations => do return [← definition suite level start decorations]
  if start.isSymbol "@" then defined (← many decoration)
  else if start.isWord "def" || start.isWord "class" then defined []
  else if start.isWord "async" then
    let second ← peekSecond
    if second.isWord "def" then defined []
    else if second.isWord "for" || second.isWord "with" then next *> nested
    else simpleLine level
  else if ["if", "while", "for", "try", "with"].any start.isWord then nested
  else if start.isWord "match" then nested <|> simpleLine level
  else simpleLine level

/-- The statements of a block of the given level. -/
def statements (level : Nat) : Reader (List Statement) := do
  let lines ← many (ahead (·.kind != .ending) *> inLevel level *> statement suite level)
  ahead fun t => t.kind == .ending || t.fresh.any (· < level)
  return lines.flatten

/-- What stands behind a colon in a block of the given level: statements on the same line, a block
that is indented further, or nothing. -/
def suiteStep (level : Nat) : Reader (List Statement) := do
  let t ← peek
  match t.fresh with
  | none =>
    let line ← simpleLine level
    absorbLine
    return line
  | some indent =>
    if level < indent && t.kind != .ending then
      let block ← statements suite indent
      absorb fun c => c.own.all (indent ≤ ·)
      return block
    else
      absorbLine
      return []

end

/-- What stands behind a colon, nested at most `fuel` deep. -/
def suite : (fuel : Nat) → (level : Nat) → Reader (List Statement)
  | 0, _ => failure
  | n + 1, level => suiteStep (suite n) level

/-- The statements of a source; `none` if it is not well formed. -/
def statements? (source : Text) : Option (List Statement) := do
  let tokens ← tokens? source
  let (result, left) ← statements (suite tokens.length) 0 (.ofTokens tokens)
  guard (left.rest.all (·.kind == .ending))
  return result

end Concord.Source.Indented
