/-
Expressions of a language with braces. Only what an expression leaves behind for
the body around it is told apart.
-/
import Concord.Source.Braced.Type

namespace Concord.Source.Braced

open Reader

variable (g : Level)

/-- The fields of a record, behind the opening brace. -/
def fieldValues : Reader Unit := do
  let base := do
    let _ ← symbol ".."
    let _ ← maybe (g.expression true)
  let field := do
    let _ ← satisfy fun t => t.kind == .word || t.kind == .number
    if ← trySymbol ":" then
      let _ ← g.expression true
  let _ ← listUntil (marks *> (base <|> field)) "\x7d"

/-! ## Expressions that end with a block -/

/-- A block, of which only the end matters. -/
def anyBlock : Reader Unit := do
  let _ ← g.block

/-- What a branch or a loop depends on: no brace behind a name belongs to it. -/
def condition : Reader Unit := do
  let _ ← g.expression false

/-- A branch behind its first word. -/
def branch : (fuel : Nat) → Reader Unit
  | 0 => failure
  | n + 1 => do
    condition g
    anyBlock g
    if ← tryWord "else" then
      if ← tryWord "if" then branch n else anyBlock g

/-- Whether an expression that ends with a block begins with these two tokens. -/
def beginsBlock (t u : Token) : Bool :=
  t.isSymbol "\x7b" || ["if", "match", "while", "loop", "for"].any t.isWord ||
    (["unsafe", "const", "try", "gen"].any t.isWord && u.isSymbol "\x7b") ||
    (t.isWord "async" && (u.isSymbol "\x7b" || u.isWord "move" || u.isWord "gen")) ||
    (t.kind == .lifetime && u.isSymbol ":")

/-- What may follow an expression that ends with a block and cannot begin a statement. -/
def continuesBlock (t : Token) : Bool :=
  t.isWord "as" || [".", "?", "+", "/", "%", "^", "==", "!=", "<=", ">", "=", "+=", "-=", "*=",
    "/=", "%=", "^=", "&=", "|="].any t.isSymbol

/-- One case of a choice. -/
def arm : Reader Unit := do
  marks
  g.pattern
  if ← tryWord "if" then
    let _ ← g.expression true
  let _ ← symbol "=>"
  let outcome ← g.standing
  if !(← trySymbol ",") then
    let closed ← seesSymbol "\x7d"
    guard (closed || outcome == .block)

/-- An expression that ends with a block. -/
def blockExpression : Reader Unit := do
  if (← peek).kind == .lifetime then
    let _ ← next
    let _ ← symbol ":"
  if ← seesSymbol "\x7b" then anyBlock g
  else
    let t ← next
    if t.isWord "if" then branch g ((← size) + 1)
    else if t.isWord "match" then
      condition g
      let _ ← symbol "\x7b"
      let _ ← many innerMark
      let _ ← many (arm g)
      let _ ← symbol "\x7d"
    else if t.isWord "while" then
      condition g
      anyBlock g
    else if t.isWord "for" then
      g.pattern
      let _ ← word "in"
      condition g
      anyBlock g
    else if t.isWord "async" then
      let _ ← maybe (word "gen")
      let _ ← maybe (word "move")
      anyBlock g
    else
      guard (["loop", "unsafe", "const", "try", "gen"].any t.isWord)
      anyBlock g

/-! ## Operands -/

/-- Whether an expression may begin with this token. -/
def beginsExpression (braces : Bool) (t : Token) : Bool :=
  match t.kind with
  | .word => !(["as", "else", "in", "where"].any t.isWord)
  | .symbol => ["(", "[", "-", "*", "!", "&", "&&", "|", "||", "<", "::", "..", "..=", "#",
      "$"].any t.isSymbol || (braces && t.isSymbol "\x7b")
  | .ending => false
  | _ => true

/-- An expression that may be missing. -/
def optionalExpression (braces : Bool) : Reader Unit := do
  if beginsExpression braces (← peek) then
    let _ ← g.expression braces

/-- A function without a name. -/
def closure (braces : Bool) : Reader Outcome := do
  let _ ← maybe (word "static")
  let _ ← maybe (word "async")
  let _ ← maybe (word "move")
  let formal := do
    singlePattern g
    if ← trySymbol ":" then g.type
  if !(← trySymbol "||") then
    let _ ← symbol "|"
    let _ ← listUntil formal "|"
  if ← trySymbol "->" then
    g.type
    anyBlock g
  else
    let _ ← g.expression braces
  return .value

/-- Whether a function without a name begins with these two tokens. -/
def beginsClosure (t u : Token) : Bool :=
  t.isSymbol "|" || t.isSymbol "||" || t.isWord "move" ||
    ((t.isWord "static" || t.isWord "async") &&
      (u.isSymbol "|" || u.isSymbol "||" || u.isWord "move"))

/-- An operand that begins with a word of its own. -/
def spelled (braces : Bool) : Reader Outcome := do
  let t ← next
  if t.isWord "return" then
    optionalExpression g braces
    return .leaving
  else if t.isWord "break" then
    let _ ← maybe lifetime
    optionalExpression g braces
    return .value
  else if t.isWord "continue" then
    let _ ← maybe lifetime
    return .value
  else if t.isWord "let" then
    g.pattern
    let _ ← symbol "="
    let _ ← g.expression braces
    return .value
  else
    guard (t.isSymbol ".." || t.isSymbol "..=" || t.isWord "yield")
    optionalExpression g braces
    return .value

def beginsSpelled (t : Token) : Bool :=
  ["return", "break", "continue", "let", "yield"].any t.isWord || t.isSymbol ".." ||
    t.isSymbol "..="

/-- An operand in brackets. -/
def bracketed : Reader Outcome := do
  let t ← next
  let item := marks *> g.expression true
  if t.isSymbol "(" then
    let _ ← many innerMark
    let items ← listUntil item ")"
    return if items.isEmpty then .unit else .value
  else
    guard (t.isSymbol "[")
    if ← trySymbol "]" then return .value
    let _ ← item
    if ← trySymbol ";" then
      let _ ← g.expression true
    else
      let _ ← many (symbol "," *> item)
      let _ ← maybe (symbol ",")
    let _ ← symbol "]"
    return .value

/-- An operand that begins with a path: a value, a macro with its arguments, or a record. -/
def pathOperand (braces : Bool) : Reader Outcome := do
  valuePath g
  let t ← peek
  if t.isSymbol "!" then
    let _ ← next
    group
    return .invocation
  if braces && t.isSymbol "\x7b" then
    let _ ← maybe (next *> fieldValues g)
  return .value

/-- An operand without what may be written behind it. -/
def atom (braces : Bool) : Reader Outcome := do
  let t ← peek
  let u ← peekSecond
  if beginsBlock t u then
    blockExpression g
    return .block
  else if beginsClosure t u then closure g braces
  else if beginsSpelled t then spelled g braces
  else if t.isSymbol "(" || t.isSymbol "[" then bracketed g
  else if t.isSymbol "$" then
    let _ ← next
    let _ ← name
    return .value
  else (constant *> pure .value) <|> pathOperand g braces

/-- What may be written behind an operand: a member, a call, an index, or a question mark. -/
def trailer : Reader Unit := do
  let t ← next
  if t.isSymbol "." then
    let _ ← satisfy fun t => t.kind == .word || t.kind == .number
    let _ ← maybe (symbol "::" *> typeArguments g)
  else if t.isSymbol "(" then
    let _ ← listUntil (marks *> g.expression true) ")"
  else if t.isSymbol "[" then
    let _ ← g.expression true
    let _ ← symbol "]"
  else guard (t.isSymbol "?")

/-! ## Operators -/

/-- Operators between two operands. -/
def binarySymbols : List String :=
  ["+", "-", "*", "/", "%", "^", "&", "|", "&&", "||", "==", "!=", "<=", "=", "+=", "-=", "*=",
    "/=", "%=", "^=", "&=", "|="]

/-- An operator between two operands. -/
def binaryOperator : Reader Unit := do
  let t ← next
  if t.isSymbol "<" then
    let _ ← maybe (adjacent *> (symbol "<" <|> symbol "<="))
  else if t.isSymbol ">" then
    let _ ← maybe (adjacent *> symbol ">")
    let _ ← maybe (adjacent *> symbol "=")
  else guard (binarySymbols.any t.isSymbol)

/-- A sign in front of an operand. -/
def sign : Reader Unit := do
  let t ← next
  if t.isSymbol "&" || t.isSymbol "&&" then
    let _ ← maybe (word "raw" *> (word "const" <|> word "mut"))
    let _ ← maybe (word "mut")
  else guard (t.isSymbol "-" || t.isSymbol "*" || t.isSymbol "!")

/-- An operand with signs in front of it and trailers behind it. -/
def operand (braces : Bool) : Reader Outcome := do
  let signs ← many sign
  let outcome ← atom g braces
  let trailers ← many (trailer g)
  return if signs.isEmpty && trailers.isEmpty then outcome else .value

/-- What follows an operand: an operator and another one, a cast, or the end of a range. -/
def continuation (braces : Bool) : Reader Unit := do
  if ← tryWord "as" then g.type
  else if (← maybe (symbol "..=" <|> symbol "..")).isSome then
    optionalExpression g braces
  else
    binaryOperator
    let _ ← operand g braces

/-- An expression behind its first operand. -/
def continued (braces : Bool) (first : Outcome) : Reader Outcome := do
  let rest ← many (continuation g braces)
  return if rest.isEmpty then first else .value

/-- An expression. -/
def expressionOf (braces : Bool) : Reader Outcome := do
  continued g braces (← operand g braces)

/-- An expression that a statement or a case consists of: one that ends with a block is complete
unless something follows that begins no statement. -/
def standingOf : Reader Outcome := do
  if beginsBlock (← peek) (← peekSecond) then
    blockExpression g
    if continuesBlock (← peek) then
      let _ ← many (trailer g)
      continued g true .value
    else return .block
  else expressionOf g true

end Concord.Source.Braced
