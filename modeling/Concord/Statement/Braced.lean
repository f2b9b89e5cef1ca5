/-
Statements whose suites stand in braces. Conditions are bare, or stand in
parentheses and may be followed by one statement without braces.
-/
import Concord.Code.Split
import Concord.Statement.Shape
import Concord.Text.Lines

namespace Concord.Statement.Braced

open Text Code

/-- How the header of a conditional or a loop is written. -/
inductive Header where
  | bare
  | parenthesised
deriving DecidableEq, Repr

/-- Whether `t` begins with the word `keyword`. -/
def beginsWithWord (t keyword : Text) : Bool :=
  match dropPrefix? keyword t with
  | some [] => true
  | some (c :: _) => isBlank c || c == '(' || c == '{'
  | none => false

/-- The words that begin a statement which ends with its block. -/
def blockWords : List Text :=
  ["if".toList, "for".toList, "while".toList, "loop".toList, "match".toList, "unsafe".toList,
    "try".toList, "switch".toList, "do".toList]

/-- Whether the text gathered so far begins a statement that ends with its block. -/
def startsBlock (t : Text) : Bool :=
  let u := trimStart t
  u.head? == some '{' || blockWords.any (beginsWithWord u)

/-- Statements of a text and its cells; `current` holds the reversed statement being gathered. -/
def gather (current : Text) : Text → List Cell → List Text
  | c :: t, cell :: cells =>
    if cell.isTop && c == ';' then trim current.reverse :: gather [] t cells
    else if cell.isTop && c == '}' && startsBlock current.reverse &&
        !startsWith (trimStart t) "else".toList then
      trim (c :: current).reverse :: gather [] t cells
    else gather (c :: current) t cells
  | _, _ => [trim current.reverse]

/-- A block without the lines that only comment. -/
def withoutCommentLines (block : Text) : Text :=
  join ['\n'] ((lines block).filter fun line => !startsWith (trimStart line) "//".toList)

/-- The top-level statements of a block. -/
def splitBlock (block : Text) : List Text :=
  let code := withoutCommentLines block
  (gather [] code (scan code)).filter fun s => !s.isEmpty

/-- A header, the statements of the suite after it, and the rest. -/
structure Clause where
  header : Text
  body : List Text
  rest : Text
deriving DecidableEq, Repr

/-- The header at the beginning of a text, and the text from its suite on. -/
def header? (style : Header) (t : Text) : Option (Text × Text) :=
  if style == .parenthesised && t.head? == some '(' then
    (closeOf? t 0).map fun close =>
      (trim ((t.take close).drop 1), trimStart (t.drop (close + 1)))
  else
    (findTop? ['{'] t).map fun brace => (trim (t.take brace), t.drop brace)

/-- Splits a text that follows a keyword into header, suite and rest. -/
def clause? (style : Header) (t : Text) : Option Clause := do
  let (header, after) ← header? style (trimStart t)
  if after.head? == some '{' then
    let close ← closeOf? after 0
    return ⟨header, splitBlock ((after.take close).drop 1), trimStart (after.drop (close + 1))⟩
  match findTop? [';'] after with
  | some semi => return ⟨header, [trim (after.take semi)], trimStart (after.drop (semi + 1))⟩
  | none => return ⟨header, [trim after], []⟩

/-- The statements of the branch after `else`. -/
def otherBranch (branch : Text) : List Text :=
  if beginsWithWord branch "if".toList then [branch]
  else if branch.head? == some '{' then
    match closeOf? branch 0 with
    | some close => splitBlock ((branch.take close).drop 1)
    | none => [branch]
  else splitTop ';' branch

def conditional (style : Header) (t : Text) : Shape :=
  match clause? style (t.drop 2) with
  | none => .unknown t
  | some clause =>
    .conditional (stripParens clause.header) clause.body
      ((dropPrefix? "else".toList clause.rest).map fun branch => otherBranch (trimStart branch))

def looping (style : Header) (t keyword : Text) : Shape :=
  match clause? style (t.drop keyword.length) with
  | none => .unknown t
  | some clause =>
    .loop (if keyword == "loop".toList then "true".toList else clause.header) clause.body

/-- What follows a word that declares a variable. -/
def declared? (t : Text) : Option Text :=
  ["let mut ".toList, "let ".toList, "const ".toList, "var ".toList, "final ".toList].findSome?
    fun word => dropPrefix? word t

/-- The place of the equals sign of an assignment; `prev` is the character before `t`. -/
def equalsPlace? (prev : Option Char) : Text → List Cell → Option Nat
  | c :: t, cell :: cells =>
    if cell.isTop && c == '=' && t.head? != some '=' && t.head? != some '>' &&
        prev != some '=' && prev != some '!' && prev != some '<' && prev != some '>' then some 0
    else (equalsPlace? (some c) t cells).map (· + 1)
  | _, _ => none

/-- The text before the last character, trimmed, and that character, if it is an operator. -/
def trailingOperator? (t : Text) : Option (Text × Char) :=
  match t.getLast? with
  | some c => if "+-*/%&|^".toList.contains c then some (trim t.dropLast, c) else none
  | none => none

def assignment? (t : Text) : Option Shape := do
  let declaration := declared? t
  let body := declaration.getD t
  let place ← equalsPlace? none body (scan body)
  let left := trim (body.take place)
  let value := trim (body.drop (place + 1))
  let (left, op) :=
    match (if declaration.isNone then trailingOperator? left else none) with
    | some (left, op) => (left, some op)
    | none => (left, none)
  let target :=
    if declaration.isSome then trim (left.takeWhile (· != ':'))
    else if left.contains ' ' && !left.contains '.' then
      (left.reverse.takeWhile (· != ' ')).reverse
    else left
  if target.isEmpty || !target.all fun c =>
      isAlphanumeric c || c == '_' || c == '.' || c == '[' || c == ']' || c == '*' then none
  return .assignment target (match op with
    | some op => target ++ [' ', op, ' '] ++ value
    | none => value)

/-- Calls that never return, by the way they begin. -/
def raisingCalls : List Text :=
  ["panic!".toList, "bail!".toList, "unreachable!".toList, "unimplemented!".toList, "todo!".toList]

/-- A text without one end `p`, if it ends so. -/
def dropEnd (p t : Text) : Text := (dropSuffix? p t).getD t

/-- Drops what may follow a call without changing what is called, `fuel` times at most. -/
def dropCallEnds : (fuel : Nat) → Text → Text
  | 0, t => t
  | fuel + 1, t =>
    let u := dropEnd ".unwrap()".toList (dropEnd ".await".toList (stripTrailing '?' t))
    if u == t then t else dropCallEnds fuel u

/-- A statement without the semicolons at its end. -/
def bare (t : Text) : Text := trimEnd (stripTrailing ';' (trim t))

/-- The call that a statement makes, without question marks, awaiting and unwrapping. -/
def bareCall (t : Text) : Text :=
  let u := bare t
  dropCallEnds (u.length + 1) u

/-- The shape of a statement. -/
def decompose (style : Header) (fragment : Text) : Shape :=
  let t := bare fragment
  if beginsWithWord t "if".toList then conditional style t
  else if beginsWithWord t "for".toList then looping style t "for".toList
  else if beginsWithWord t "while".toList then looping style t "while".toList
  else if beginsWithWord t "loop".toList then looping style t "loop".toList
  else if t == "return".toList then .returning none
  else match dropPrefix? "return ".toList t with
  | some value => .returning (some (trim value))
  | none =>
    match dropPrefix? "throw ".toList t with
    | some error =>
      let error := trim error
      .raising (trim ((dropPrefix? "new ".toList error).getD error))
    | none =>
      if raisingCalls.any (startsWith t) then .raising t
      else match assignment? t with
      | some shape => shape
      | none =>
        let call := bareCall t
        let call := trim ((dropPrefix? "await ".toList call).getD call)
        if looksLikeCall call then .call call else .unknown t

/-- The field that an assignment to `target` sets on its receiver. -/
def ownField? (target : Text) : Option Text := do
  let field ← (dropPrefix? "self.".toList target).or (dropPrefix? "this.".toList target)
  if field.all fun c => isAlphanumeric c || c == '_' then some field else none

end Concord.Statement.Braced
