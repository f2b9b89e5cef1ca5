/-
Types and patterns of a language with braces.
-/
import Concord.Source.Braced.Basic

namespace Concord.Source.Braced

open Reader

variable (g : Level)

/-! ## Types -/

def anyLifetime : Reader Unit := do
  let _ ← lifetime

/-- Bounds with a plus sign between them. -/
def bounds : Reader Unit := do
  let _ ← maybe (sepBy (anyLifetime <|> g.type) (symbol "+"))
  let _ ← maybe (symbol "+")

/-- An argument of a type: a lifetime, a type or a constant, perhaps for a name. -/
def typeArgument : Reader Unit := do
  let _ ← maybe (name *> symbol "=")
  let bounded := do
    let _ ← name
    let _ ← symbol ":"
    bounds g
  let typed := do
    g.type
    if ← trySymbol "+" then bounds g
  let computed := do
    let _ ← g.block
  bounded <|> anyLifetime <|> typed <|> constant <|> computed

/-- The arguments of a type in angle brackets. -/
def typeArguments : Reader Unit := do
  let _ ← symbol "<"
  let _ ← listUntil (typeArgument g) ">"

/-- The types of the arguments and of the result of a function. -/
def functionTypes : Reader Unit := do
  let _ ← symbol "("
  let one := do
    marks
    let _ ← maybe (name *> symbol ":")
    g.type <|> (do let _ ← symbol "...")
  let _ ← listUntil one ")"
  if ← trySymbol "->" then g.type

/-- One name of a path, with its arguments. -/
def segment : Reader Unit := do
  let _ ← name
  let _ ← maybe (typeArguments g <|> (symbol "::" *> typeArguments g) <|> functionTypes g)

/-- A type in angle brackets, perhaps seen as another one. -/
def qualified : Reader Unit := do
  let _ ← symbol "<"
  g.type
  if ← tryWord "as" then g.type
  let _ ← symbol ">"
  let _ ← symbol "::"

/-- A path of names to a type. -/
def typePath : Reader Unit := do
  if ← seesSymbol "<" then qualified g
  else
    let _ ← maybe (symbol "::")
  let _ ← sepBy (segment g) (symbol "::")

/-- Lifetimes for all of which something holds. -/
def forLifetimes : Reader Unit := do
  let _ ← word "for"
  let _ ← symbol "<"
  let one := do
    let _ ← lifetime
    if ← trySymbol ":" then bounds g
  let _ ← listUntil one ">"

/-- A type. -/
def typeOf : Reader Unit := do
  let t ← peek
  if t.isSymbol "(" then
    let one := do
      g.type
      if ← trySymbol "+" then bounds g
    let _ ← next
    let _ ← listUntil one ")"
  else if t.isSymbol "[" then
    let _ ← next
    g.type
    if ← trySymbol ";" then
      let _ ← g.expression true
    let _ ← symbol "]"
  else if t.isSymbol "&" || t.isSymbol "&&" then
    let _ ← next
    let _ ← maybe lifetime
    let _ ← maybe (word "mut")
    g.type
  else if t.isSymbol "*" then
    let _ ← next
    let _ ← word "const" <|> word "mut"
    g.type
  else if t.isSymbol "!" then
    let _ ← next
  else if t.isSymbol "?" then
    let _ ← next
    g.type
  else if t.isWord "impl" || t.isWord "dyn" then
    let _ ← next
    bounds g
  else if t.isWord "for" then
    forLifetimes g
    g.type
  else if t.isWord "fn" || t.isWord "unsafe" || t.isWord "extern" then
    let _ ← maybe (word "unsafe")
    if ← tryWord "extern" then
      let _ ← maybe (satisfy (·.kind == .quoted))
    let _ ← word "fn"
    functionTypes g
  else if t.isSymbol "$" then
    let _ ← next
    let _ ← name
  else
    typePath g
    if ← trySymbol "!" then group

/-- Parameters of a declaration in angle brackets. -/
def typeParameters : Reader Unit := do
  let one := do
    marks
    if ← tryWord "const" then
      let _ ← name
      let _ ← symbol ":"
      g.type
      if ← trySymbol "=" then
        constant <|> g.type <|> (do let _ ← g.block)
    else
      anyLifetime <|> (do let _ ← name)
      if ← trySymbol ":" then bounds g
      if ← trySymbol "=" then g.type
  if ← trySymbol "<" then
    let _ ← listUntil one ">"

/-- Conditions on types. -/
def whereClause : Reader Unit := do
  let one := do
    anyLifetime <|> g.type
    let _ ← symbol ":"
    bounds g
  if ← tryWord "where" then
    let _ ← maybe (sepBy one (symbol ","))
    let _ ← maybe (symbol ",")

/-! ## Patterns -/

/-- The fields of a pattern, behind the opening brace. -/
def fieldPatterns : Reader Unit := do
  let field := do
    let _ ← maybe (word "ref")
    let _ ← maybe (word "mut")
    let _ ← satisfy fun t => t.kind == .word || t.kind == .number
    if ← trySymbol ":" then g.pattern
  let rest := do
    let _ ← symbol ".."
  let _ ← listUntil (marks *> (rest <|> field)) "\x7d"

/-- A path of names to a value. -/
def valuePath : Reader Unit := do
  if ← seesSymbol "<" then qualified g
  else
    let _ ← maybe (symbol "::")
  let _ ← name
  let _ ← many (symbol "::" *> (typeArguments g <|> (do let _ ← name)))

/-- A pattern that begins with a name. -/
def namedPattern : Reader Unit := do
  valuePath g
  if ← trySymbol "(" then
    let _ ← listUntil g.pattern ")"
  else if ← trySymbol "\x7b" then fieldPatterns g
  else if ← trySymbol "!" then group
  else if ← trySymbol "@" then g.single

/-- A constant or a name, or a range between two of them. -/
def rangePattern : Reader Unit := do
  let dots := symbol "..=" <|> symbol "..." <|> symbol ".."
  let open_ ← maybe dots
  if open_.isSome then
    let _ ← maybe (constant <|> valuePath g)
  else
    constant <|> namedPattern g
    if (← maybe dots).isSome then
      let _ ← maybe (constant <|> valuePath g)

/-- A pattern without alternatives. -/
def singlePattern : Reader Unit := do
  let t ← peek
  if t.isSymbol "(" then
    let _ ← next
    let _ ← listUntil g.pattern ")"
  else if t.isSymbol "[" then
    let _ ← next
    let _ ← listUntil g.pattern "]"
  else if t.isSymbol "&" || t.isSymbol "&&" then
    let _ ← next
    let _ ← maybe (word "mut")
    g.single
  else if t.isWord "ref" || t.isWord "mut" then
    let _ ← next
    g.single
  else if t.isWord "const" then
    let _ ← next
    let _ ← g.block
  else rangePattern g

/-- A pattern with its alternatives. -/
def patternOf : Reader Unit := do
  let _ ← maybe (symbol "|")
  let _ ← sepBy (singlePattern g) (symbol "|")

end Concord.Source.Braced
