/-
Statements whose suites are set off by indentation. A compound statement is a
keyword, a header up to a colon and a suite, which stands on the same line or is
indented on the lines below; the clauses of one statement follow each other at its own
indentation.
-/
import Concord.Code.Split
import Concord.Statement.Shape
import Concord.Text.Lines

namespace Concord.Statement.Indented

open Text Code

/-- Whether `t` begins with the word `keyword`. -/
def beginsWithWord (t keyword : Text) : Bool :=
  match dropPrefix? keyword t with
  | some [] => true
  | some (c :: _) => c == ' ' || c == ':' || c == '(' || c == '\t'
  | none => false

/-- The words that continue a compound statement with a further clause. -/
def continuations : List Text :=
  ["elif".toList, "else".toList, "except".toList, "finally".toList]

/-- The bracket depth after a text. -/
def openBrackets (t : Text) : Nat := (Cursor.start.after t).depth

def startsBlank : Text → Bool
  | [] => false
  | c :: _ => isBlank c

/-- Lines gathered into statements. `current` holds the lines of the statement being gathered. -/
def gather (current : List Text) : List Text → List (List Text)
  | [] => if current.isEmpty then [] else [current]
  | line :: rest =>
    let word := trim line
    let continues :=
      0 < openBrackets (join ['\n'] current) ||
      (match current.getLast? with
        | some last => (trimEnd last).getLast? == some '\\'
        | none => false) ||
      startsBlank line || word.isEmpty || continuations.any (beginsWithWord word)
    let skipped := word.isEmpty || word.head? == some '#'
    if continues || current.isEmpty then
      if current.isEmpty && skipped then gather [] rest else gather (current ++ [line]) rest
    else current :: (if skipped then gather [] rest else gather [line] rest)

/-- The top-level statements of a block without common indentation. -/
def statements (block : Text) : List Text :=
  ((gather [] (lines block)).map fun ls => trimEnd (join ['\n'] ls)).filter
    fun s => !s.isEmpty && s != "pass".toList

/-- The top-level statements of a block. -/
def splitBlock (block : Text) : List Text := statements (outdent block)

/-- One clause of a compound statement and the text after it. -/
structure Clause where
  header : Text
  body : List Text
  rest : Text
deriving DecidableEq, Repr

/-- Splits a text that begins with a keyword of `skip` characters into header, suite and rest. The
colon of `:=` does not end a header. -/
def clause? (t : Text) (skip : Nat) : Option Clause := do
  let colon ← findTopWhere? (fun u => u.head? == some ':' && u[1]? != some '=') t skip
  let header := trim ((t.take colon).drop skip)
  let after := t.drop (colon + 1)
  let (first, below) := (cut? ['\n'] after).getD (after, [])
  let inline := trim first
  if !inline.isEmpty && inline.head? != some '#' then
    return ⟨header, splitTop ';' inline, below⟩
  let ls := lines below
  let indented := fun line => allBlank line || startsBlank line
  return ⟨header, splitBlock (join ['\n'] (ls.takeWhile indented)),
    join ['\n'] (ls.dropWhile indented)⟩

def conditional (t : Text) : Shape :=
  match clause? t 2 with
  | none => .unknown t
  | some clause =>
    let rest := stripLeading '\n' clause.rest
    let otherwise :=
      match dropPrefix? "elif".toList rest with
      | some tail => some ["if".toList ++ tail]
      | none =>
        if beginsWithWord rest "else".toList then (clause? rest 4).map Clause.body else none
    .conditional clause.header clause.body otherwise

def looping (t : Text) (skip : Nat) : Shape :=
  match clause? t skip with
  | some clause => .loop clause.header clause.body
  | none => .unknown t

/-- The operator that an augmented assignment applies. -/
def leadingOperator (t : Text) : Text :=
  let two := t.take 2
  if two == "**".toList || two == "//".toList || two == "<<".toList || two == ">>".toList then two
  else match t with
    | c :: _ => if "-+*/%&|^@".toList.contains c then [c] else []
    | [] => []

/-- Whether `t` is blanks and then at most one operator; gives that operator. -/
def operatorOnly? (t : Text) : Option Text :=
  let u := trimStart t
  if leadingOperator u == u then some u else none

/-- The operator written at the end of an annotation, after at least one character. -/
def operatorAtEnd : Text → Text
  | [] => []
  | _ :: t =>
    match operatorOnly? t with
    | some op => op
    | none => operatorAtEnd t

/-- The value after an equals sign that is not doubled. -/
def assigned? : Text → Option Text
  | '=' :: c :: t => if c == '=' then none else some (c :: t)
  | _ => none

/-- The target that a text begins with: a dotted name with at most one subscript. -/
def leadingTarget (t : Text) : Text :=
  let name := t.takeWhile fun c => isWord c || c == '.'
  let after := t.drop name.length
  if after.head? == some '[' then
    match cut? [']'] after with
    | some (index, _) => name ++ index ++ [']']
    | none => name
  else name

/-- Operator and value of an assignment, from what follows its target. An annotation may stand before
the equals sign. -/
def operatorAndValue? (tail : Text) : Option (Text × Text) := do
  if tail.head? == some ':' then
    let hint := (tail.drop 1).takeWhile (· != '=')
    if hint.isEmpty then none
    let value ← assigned? (tail.drop (1 + hint.length))
    return (operatorAtEnd (trimStart hint), value)
  let op := leadingOperator tail
  let value ← assigned? (tail.drop op.length)
  return (op, value)

/-- Target, operator and value of an assignment. -/
def assignment? (t : Text) : Option (Text × Text × Text) := do
  let head ← t.head?
  if !isNameStart head then none
  let target := leadingTarget t
  let (op, value) ← operatorAndValue? (trimStart (t.drop target.length))
  return (target, op, value)

/-- An assignment with its operator written out: `x += 1` assigns `x + 1`. -/
def assignmentShape (target op value : Text) : Shape :=
  .assignment target (if op.isEmpty then value else target ++ [' '] ++ op ++ [' '] ++ value)

/-- The shape of a statement. -/
def decompose (fragment : Text) : Shape :=
  let t := trim fragment
  if beginsWithWord t "if".toList then conditional t
  else if beginsWithWord t "for".toList then looping t 3
  else if beginsWithWord t "while".toList then looping t 5
  else match dropPrefix? "async for ".toList t with
  | some rest => looping ("for ".toList ++ rest) 3
  | none =>
    if t == "return".toList then .returning none
    else match dropPrefix? "return ".toList t with
    | some value => .returning (some (trim value))
    | none =>
      if t == "raise".toList then .raising t
      else match dropPrefix? "raise ".toList t with
      | some error =>
        .raising (trim (match findTop? " from ".toList error with
          | some place => error.take place
          | none => error))
      | none =>
        match assignment? t with
        | some (target, op, value) => assignmentShape target op (trim value)
        | none =>
          let call := trim ((dropPrefix? "await ".toList t).getD t)
          if looksLikeCall call then .call call else .unknown t

/-- The field that an assignment to `target` sets on its receiver. -/
def ownField? (target : Text) : Option Text := do
  let field ← dropPrefix? "self.".toList target
  if field.all fun c => isAlphanumeric c || c == '_' then some field else none

end Concord.Statement.Indented
