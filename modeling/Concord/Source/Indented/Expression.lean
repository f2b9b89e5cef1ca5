/-
Expressions of a language with indented blocks, as far as declarations are read
from them: names, literals, calls with their arguments, members, lists and tuples.
Everything else is kept as text.

A line break between the parts of an expression is a blank inside brackets and
wherever an operand has to follow; behind an operand it ends the expression.
-/
import Concord.Source.Token

namespace Concord.Source.Indented

open Reader

/-- An expression with its text. -/
inductive Expression where
  | name (name : Name)
  /-- One literal. -/
  | literal (text : Text)
  | call (text function : Text) (arguments : List Expression) (keywords : List (Text × Expression))
  | member (text owner : Text)
  /-- A list or a tuple; `lead` is a comment right behind the opening bracket. -/
  | group (text : Text) (lead : Option Text) (items : List Expression)
  /-- Expressions with commas between them and no brackets around. -/
  | row (text : Text) (first : Expression)
  | other (text : Text)

namespace Expression

def text : Expression → Text
  | name n => n.text
  | literal t => t
  | call t _ _ _ => t
  | member t _ => t
  | group t _ _ => t
  | row t _ => t
  | other t => t

end Expression

/-- An argument of a call, with its keyword if it has one. -/
abbrev Argument := Option Text × Expression

/-! ## Operators -/

def binarySymbols : List Text :=
  ["+", "-", "*", "/", "//", "%", "@", "**", "<<", ">>", "&", "|", "^", "<", ">", "==", "!=", "<=",
    ">=", "<>"].map (·.toList)

def isUnary (t : Token) : Bool :=
  t.isSymbol "-" || t.isSymbol "+" || t.isSymbol "~" || t.isWord "not" || t.isWord "await"

/-- Whether the line of an expression goes on with this token. -/
def joined (t : Token) : Bool := t.fresh.isNone && t.kind != .ending

/-- An operator between two operands; `membership` tells whether the word `in` is one. -/
def binary (membership : Bool) : Reader Unit := do
  ahead joined
  let t ← next
  if t.kind == .symbol then guard (binarySymbols.contains t.text)
  else if t.isWord "and" || t.isWord "or" then pure ()
  else if t.isWord "in" then guard membership
  else if t.isWord "is" then let _ ← tryWord "not"
  else if t.isWord "not" then
    guard membership
    let _ ← word "in"
  else failure

/-- A symbol that does not begin a line. -/
def symbolHere (s : String) : Reader Token := satisfy fun t => joined t && t.isSymbol s

/-- A word that does not begin a line. -/
def wordHere (w : String) : Reader Token := satisfy fun t => joined t && t.isWord w

/-! ## Operands

The readers below take the reader of whole expressions as an argument. -/

section

variable (expression : Reader Expression)

/-- An expression with stars in front. -/
def starred : Reader Expression := do
  let (e, t) ← withText do
    let stars ← maybe (symbol "*" <|> symbol "**")
    return (stars.isSome, ← expression)
  return if e.1 then .other t else e.2

/-- The `for` and `if` parts of a comprehension. -/
def clauses (operand : Bool → Reader Expression) : Reader (List Text) := do
  let first ← forClause
  let rest ← many (forClause <|> ifClause)
  return first :: rest
where
  forClause : Reader Text := textOf do
    let _ ← maybe (word "async")
    let _ ← word "for"
    let _ ← sepBy (maybe (symbol "*") *> operand false) (symbol ",")
    let _ ← maybe (symbol ",")
    let _ ← word "in"
    let _ ← sepBy expression (symbol ",")
  ifClause : Reader Text := textOf do
    let _ ← word "if"
    let _ ← expression

/-- One argument of a call. -/
def argument : Reader Argument :=
  (do
    let name ← anyWord
    let _ ← symbol "="
    return (some name.text, ← expression)) <|>
  (do return (none, ← starred expression))

/-- Whether a comprehension goes on with this token. -/
def beginsClause (t : Token) : Bool := t.isWord "for" || t.isWord "async"

/-- The arguments of a call, behind the opening bracket. -/
def arguments (operand : Bool → Reader Expression) : Reader (List Argument) := do
  if ← trySymbol ")" then return []
  let first ← argument expression
  let more ← if beginsClause (← peek) then
      let parts ← clauses expression operand
      pure (parts.map fun t => (none, .other t))
    else many (symbol "," *> argument expression)
  let _ ← maybe (symbol ",")
  let _ ← symbol ")"
  return first :: more

/-- One index or slice. -/
def subscript : Reader Unit := do
  let index ← maybe (starred expression)
  if ← trySymbol ":" then
    let _ ← maybe expression
    if ← trySymbol ":" then
      let _ ← maybe expression
  else guard index.isSome

/-- The items behind an opening bracket; the first component tells whether they are written one by
one, and the second whether there is a comma. -/
def display (operand : Bool → Reader Expression) (close : String) :
    Reader (Bool × Bool × List Expression) := do
  if ← trySymbol close then return (true, true, [])
  let first ← starred expression
  if beginsClause (← peek) then
    let _ ← clauses expression operand
    let _ ← symbol close
    return (false, false, [first])
  let rest ← many (symbol "," *> starred expression)
  let trailing ← trySymbol ","
  let _ ← symbol close
  return (true, trailing || !rest.isEmpty, first :: rest)

/-- One entry between braces, and whether it has a key. -/
def entry : Reader Bool :=
  (do
    let _ ← symbol "**"
    let _ ← expression
    return true) <|>
  (do
    let _ ← starred expression
    let keyed ← trySymbol ":"
    if keyed then
      let _ ← expression
    return keyed)

/-- The entries behind an opening brace: of a set, or of a dictionary. -/
def entries (operand : Bool → Reader Expression) : Reader Unit := do
  if ← trySymbol "\x7d" then return
  let keyed ← entry expression
  if beginsClause (← peek) then
    let _ ← clauses expression operand
  else
    let rest ← many (symbol "," *> entry expression)
    guard (rest.all (· == keyed))
    let _ ← maybe (symbol ",")
  let _ ← symbol "\x7d"

/-- The name of a parameter in front of its default. -/
def lambdaParameter : Reader Unit :=
  (do
    let _ ← maybe (symbol "**" <|> symbol "*")
    let _ ← anyWord
    if ← trySymbol "=" then
      let _ ← expression) <|>
  (do let _ ← symbol "*" <|> symbol "/")

/-- A function without a name. -/
def anonymous : Reader Expression := do
  let start ← word "lambda"
  let _ ← maybe (sepBy (lambdaParameter expression) (symbol ","))
  let _ ← maybe (symbol ",")
  let _ ← symbol ":"
  let _ ← expression
  return .other (start.textTo (← stop))

/-- Words that stand for a value. -/
def isConstant (t : Token) : Bool := t.isWord "None" || t.isWord "True" || t.isWord "False"

/-- What stands behind an opening parenthesis or square bracket that begins an operand. -/
def bracketed (operand : Bool → Reader Expression) (start : Token) : Reader Expression := do
  let lead := (← peek).comments.head?.map (·.text)
  if start.isSymbol "[" then
    let (listed, _, items) ← display expression operand "]"
    let text := start.textTo (← stop)
    return if listed then .group text lead items else .other text
  if ← tryWord "yield" then
    let _ ← maybe (word "from")
    let _ ← maybe (sepBy (starred expression) (symbol ","))
    let _ ← maybe (symbol ",")
    let _ ← symbol ")"
    return .other (start.textTo (← stop))
  let (_, commas, items) ← display expression operand ")"
  let text := start.textTo (← stop)
  return if commas then .group text lead items else .other text

/-- An operand without what may be written behind it. -/
def atom (operand : Bool → Reader Expression) : Reader Expression := do
  let t ← next
  match h : t.kind with
  | .number => return .other t.text
  | .quoted =>
    let more ← many (satisfy fun t => t.kind == .quoted && joined t)
    let text := t.textTo (← stop)
    return if more.isEmpty then .literal text else .other text
  | .word => return if isConstant t then .other t.text else .name (t.name h)
  | .symbol =>
    if t.isSymbol "..." then return .other t.text
    else if t.isSymbol "(" || t.isSymbol "[" then bracketed expression operand t
    else if t.isSymbol "\x7b" then
      entries expression operand
      return .other (t.textTo (← stop))
    else failure
  | _ => failure

/-- What may be written behind an operand: a member, a call or an index. -/
def trailer (operand : Bool → Reader Expression) (start : Token) (e : Expression) :
    Reader Expression := do
  ahead joined
  let t ← next
  if t.isSymbol "." then
    let _ ← anyWord
    return .member (start.textTo (← stop)) e.text
  else if t.isSymbol "(" then
    let args ← arguments expression operand
    let keywords := args.filterMap fun (k, e) => k.map fun k => (k, e)
    let positional := args.filterMap fun (k, e) => if k.isNone then some e else none
    return .call (start.textTo (← stop)) e.text positional keywords
  else if t.isSymbol "[" then
    let _ ← sepBy (subscript expression) (symbol ",")
    let _ ← maybe (symbol ",")
    let _ ← symbol "]"
    return .other (start.textTo (← stop))
  else failure

def trailers (operand : Bool → Reader Expression) (start : Token) :
    (fuel : Nat) → Expression → Reader Expression
  | 0, e => pure e
  | n + 1, e =>
    (do trailers operand start n (← trailer expression operand start e)) <|> pure e

/-- An operand. -/
def primary (operand : Bool → Reader Expression) : Reader Expression := do
  let start ← peek
  trailers expression operand start (← size) (← atom expression operand)

/-- Operands with operators in front of them and between them. -/
def operation (operand : Bool → Reader Expression) (membership : Bool) : Reader Expression := do
  let start ← peek
  let signed := do
    let signs ← many (satisfy isUnary)
    let e ← anonymous expression <|> primary expression operand
    return (signs.isEmpty, e)
  let (plain, e) ← signed
  let rest ← many (binary membership *> signed)
  let text := start.textTo (← stop)
  return if plain && rest.isEmpty then e else .other text

/-- A whole expression: a name with a value, or an operation, perhaps one of two, perhaps with a
name for it. -/
def whole (operand : Bool → Reader Expression) : Reader Expression := do
  let start ← peek
  let named := do
    let _ ← anyWord
    let _ ← symbolHere ":="
    let _ ← expression
    return .other (start.textTo (← stop))
  let plain := do
    let e ← operation expression operand true
    let choice ← maybe do
      let _ ← wordHere "if"
      let _ ← expression
      let _ ← word "else"
      let _ ← expression
    let renamed ← maybe do
      let _ ← wordHere "as"
      let _ ← expression
    let text := start.textTo (← stop)
    return if choice.isNone && renamed.isNone then e else .other text
  named <|> plain

end

mutual

/-- An expression. -/
def expression : (fuel : Nat) → Reader Expression
  | 0 => failure
  | n + 1 => whole (expression n) (operand n)

/-- An expression without a choice; `membership` tells whether `in` is an operator of it. -/
def operand : (fuel : Nat) → (membership : Bool) → Reader Expression
  | 0, _ => failure
  | n + 1, membership => operation (expression n) (operand n) membership

end

/-- An expression, nested as deep as the source allows. -/
def anExpression : Reader Expression := do expression ((← size) + 1)

/-- An operation, nested as deep as the source allows. -/
def anOperand (membership : Bool) : Reader Expression := do operand ((← size) + 1) membership

/-- The target of a loop: expressions in which `in` is no operator. -/
def targets : Reader Unit := do
  let _ ← sepBy (maybe (symbol "*") *> anOperand false) (symbol ",")
  let _ ← maybe (symbol ",")

/-- Further items behind a first one, each behind a comma on its line, and whether a comma follows
the last. A comma that ends its line ends the items. -/
def furtherItems {α : Type} (item : Reader α) : Reader (List α × Bool) := do
  let rest ← many (symbolHere "," *> ahead joined *> item)
  return (rest, (← maybe (symbolHere ",")).isSome)

/-- Expressions with commas between them, as one. -/
def expressions : Reader Expression := do
  let start ← peek
  let first ← starred anExpression
  let (rest, trailing) ← furtherItems (starred anExpression)
  let text := start.textTo (← stop)
  return if rest.isEmpty && !trailing then first else .row text first

end Concord.Source.Indented
