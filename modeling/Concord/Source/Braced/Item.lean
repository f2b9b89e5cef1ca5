/-
Declarations and bodies of a language with braces, and the grammar as a whole.

An attribute or a line of documentation belongs to the declaration right behind
it; any other comment in between keeps it from that declaration.
-/
import Concord.Source.Braced.Expression

namespace Concord.Source.Braced

open Reader Text

variable (g : Level)

/-! ## Parts of declarations -/

/-- Who may see a declaration. -/
def visibility : Reader Unit := do
  if ← tryWord "pub" then
    let _ ← maybe do
      let _ ← symbol "("
      if ← tryWord "in" then valuePath g
      else
        let _ ← word "crate" <|> word "self" <|> word "super"
      let _ ← symbol ")"

/-- The receiver of a method. -/
def receiver : Reader Formal := do
  let _ ← maybe (symbol "&")
  let _ ← maybe lifetime
  let _ ← maybe (word "mut")
  let _ ← word "self"
  ahead fun t => !t.isSymbol ":"
  return .receiver

/-- A parameter with a type. -/
def typedFormal : Reader Formal := do
  let _ ← maybe (word "mut")
  let pattern ← textOf g.pattern
  let _ ← symbol ":"
  let type ← textOf g.type
  return .typed pattern type

/-- A parameter of a function. -/
def formal : Reader Formal := do
  marks
  let bare := do
    (do let _ ← symbol "...") <|> g.type
    return .other
  receiver <|> typedFormal g <|> bare

/-- A named field of a record with its type. -/
def namedField : Reader (Name × Text) := do
  marks
  visibility g
  let n ← anyName
  let _ ← symbol ":"
  return (n, ← textOf g.type)

/-- The named fields of a record, behind the opening brace. -/
def namedFields : Reader (List (Name × Text)) := listUntil (namedField g) "\x7d"

/-- The fields of a record without names, behind the opening bracket. -/
def plainFields : Reader Unit := do
  let one := do
    marks
    visibility g
    g.type
  let _ ← listUntil one ")"

/-- A variant of an enumeration, and whether it holds data. -/
def variant : Reader (Text × Bool) := do
  marks
  visibility g
  let n ← name
  let data ← maybe
    ((symbol "\x7b" *> namedFields g *> pure ()) <|> (symbol "(" *> plainFields g))
  if ← trySymbol "=" then
    let _ ← g.expression true
  return (n.text, data.isSome)

/-- The words that may stand in front of a function. -/
def modifiers : Reader Unit := do
  let foreign := do
    let _ ← word "extern"
    let _ ← maybe (satisfy (·.kind == .quoted))
  let plain := do
    let _ ← satisfy fun t => ["async", "default", "const", "unsafe"].any t.isWord
  let _ ← many (foreign <|> plain)

/-! ## Declarations -/

/-- A function; without a body it is no declaration of interest. -/
def functionItem (notes : List Note) : Reader Item := do
  let (_, words) ← withText modifiers
  let _ ← word "fn"
  let n ← name
  typeParameters g
  let _ ← symbol "("
  let formals ← listUntil (formal g) ")"
  let returns ← maybe (symbol "->" *> textOf g.type)
  whereClause g
  if ← trySymbol ";" then return .other
  let body ← g.block
  return .function ⟨n, notes, words, formals, returns, body⟩

/-- A record, behind its word. -/
def recordItem (notes : List Note) (line : Nat) : Reader Item := do
  let n ← name
  typeParameters g
  if ← trySymbol "(" then
    plainFields g
    whereClause g
    let _ ← symbol ";"
    return .record notes line n none
  whereClause g
  if ← trySymbol ";" then return .record notes line n none
  let _ ← symbol "\x7b"
  return .record notes line n (some (← namedFields g))

/-- An enumeration, behind its word. -/
def choiceItem : Reader Item := do
  let n ← name
  typeParameters g
  whereClause g
  let _ ← symbol "\x7b"
  let variants ← listUntil (variant g) "\x7d"
  return .choice n.text (if variants.any (·.2) then none else some (variants.map (·.1)))

/-- An implementation, behind its word. -/
def implementationItem : Reader Item := do
  typeParameters g
  let _ ← maybe (symbol "!")
  let first ← textOf g.type
  let second ← maybe (word "for" *> textOf g.type)
  whereClause g
  let functions := fun (items : List Item) => items.filterMap fun
    | .function f => some f
    | _ => none
  let (interface, type) := match second with
    | some type => (some first, type)
    | none => (none, first)
  if ← trySymbol ";" then return .implementation interface type []
  let _ ← symbol "\x7b"
  return .implementation interface type (functions (← g.items))

/-- A name, perhaps under another one. -/
def renamable : Reader Unit := do
  let _ ← name
  let _ ← maybe (word "as" *> name)

/-- What is brought in: everything, a list, or a path that may go on with either. -/
def imported : (fuel : Nat) → Reader Unit
  | 0 => failure
  | n + 1 => do
    if ← trySymbol "\x7b" then
      let _ ← listUntil (imported n) "\x7d"
    else if !(← trySymbol "*") then
      (name *> symbol "::" *> imported n) <|> renamable

/-- A declaration that begins with a word of its own, behind its visibility. -/
def keywordItem (notes : List Note) (line : Nat) : Reader (Item × Role) := do
  let t ← peek
  let u ← peekSecond
  let declared := fun (item : Item) => (item, Role.ordinary)
  if t.isWord "struct" then
    let _ ← next
    return declared (← recordItem g notes line)
  else if t.isWord "enum" then
    let _ ← next
    return declared (← choiceItem g)
  else if t.isWord "impl" || (t.isWord "unsafe" && u.isWord "impl") then
    let _ ← maybe (word "unsafe")
    let _ ← next
    return declared (← implementationItem g)
  else if t.isWord "trait" || (t.isWord "unsafe" && u.isWord "trait") then
    let _ ← maybe (word "unsafe")
    let _ ← next
    let _ ← name
    typeParameters g
    if ← trySymbol ":" then bounds g
    whereClause g
    let _ ← symbol "\x7b"
    let _ ← g.items
    return declared .other
  else if t.isWord "mod" then
    let _ ← next
    let _ ← name
    if ← trySymbol ";" then return declared .other
    let _ ← symbol "\x7b"
    return declared (.space (← g.items))
  else if t.isWord "union" && u.kind == .word then
    let _ ← next
    let _ ← name
    typeParameters g
    whereClause g
    let _ ← symbol "\x7b"
    let _ ← namedFields g
    return declared .other
  else if t.isWord "use" then
    let _ ← next
    let _ ← maybe (symbol "::")
    imported ((← size) + 1)
    let _ ← symbol ";"
    return (.other, .result)
  else if t.isWord "extern" && u.isWord "crate" then
    let _ ← next
    let _ ← word "crate"
    renamable
    let _ ← symbol ";"
    return (.other, .result)
  else if t.isWord "type" then
    let _ ← next
    let _ ← name
    typeParameters g
    if ← trySymbol ":" then bounds g
    whereClause g
    let given ← trySymbol "="
    if given then g.type
    whereClause g
    let _ ← symbol ";"
    return (.other, if given then .ordinary else .result)
  else if t.isWord "static" || (t.isWord "const" && u.kind == .word &&
      !(["fn", "unsafe", "async", "extern"].any u.isWord)) then
    let _ ← next
    let _ ← maybe (word "ref")
    let _ ← maybe (word "mut")
    let _ ← name
    let _ ← symbol ":"
    g.type
    if ← trySymbol "=" then
      let _ ← g.expression true
    let _ ← symbol ";"
    return declared .other
  else
    let foreign := do
      let _ ← maybe (word "unsafe")
      let _ ← word "extern"
      let _ ← maybe (satisfy (·.kind == .quoted))
      let _ ← symbol "\x7b"
      let _ ← g.items
      return Item.other
    if t.isWord "extern" || (t.isWord "unsafe" && u.isWord "extern") then
      return declared (← foreign <|> functionItem g notes)
    else return declared (← functionItem g notes)

/-- Whether a declaration begins with these two tokens. -/
def beginsItem (t u : Token) : Bool :=
  ["pub", "struct", "enum", "impl", "trait", "mod", "use", "type", "fn", "extern"].any t.isWord ||
    (["unsafe", "const", "static", "async"].any t.isWord &&
      u.kind != .symbol && !u.isWord "move" && !u.isWord "gen") ||
    (t.isWord "default" && ["fn", "async", "const", "unsafe", "extern"].any u.isWord) ||
    (t.isWord "union" && u.kind == .word && !u.isWord "as")

/-- A definition of a macro. -/
def macroItem : Reader Unit := do
  let _ ← word "macro_rules"
  let _ ← symbol "!"
  let _ ← name
  let braces ← seesSymbol "\x7b"
  group
  if !braces then
    let _ ← symbol ";"

/-! ## Bodies -/

/-- A statement that gives a name to a value. -/
def letStatement : Reader Unit := do
  let _ ← word "let"
  let _ ← maybe (word "mut")
  g.pattern
  if ← trySymbol ":" then g.type
  if ← trySymbol "=" then
    let _ ← g.expression true
    if ← tryWord "else" then anyBlock g
  let _ ← symbol ";"

/-- An expression as a statement, or as the value of the body if it ends the body. -/
def evaluation : Reader Role := do
  let outcome ← g.standing
  if outcome == .block then return .ordinary
  if ← trySymbol ";" then return .ordinary
  if outcome == .invocation then return .ordinary
  ahead (·.isSymbol "\x7d")
  return match outcome with
    | .unit => .silent
    | .value => .result
    | _ => .ordinary

/-- An invocation of a macro in the place of a declaration. -/
def invocation : Reader Role := do
  valuePath g
  let _ ← symbol "!"
  group
  return .ordinary

/-- One statement, with the declaration that it is. Where only declarations may stand, `other`
reads what begins with no word of its own. -/
def statement (other : Reader Role) (notes : List Note) : Reader (Item × Role) := do
  let t ← peek
  let u ← peekSecond
  let plain := fun (role : Role) => (Item.other, role)
  if t.isSymbol ";" then
    let _ ← next
    return plain .silent
  else if t.isSymbol "#" && u.isSymbol "!" then
    innerMark
    return plain .ordinary
  else if t.isSymbol "#" then
    outerMark
    return plain .aside
  else if t.isWord "let" then
    letStatement g
    return plain .ordinary
  else if t.isWord "macro_rules" && u.isSymbol "!" then
    macroItem
    return plain .result
  else if beginsItem t u then
    visibility g
    keywordItem g notes t.place.line
  else return plain (← other)

/-- The statements of a body in braces. -/
def blockOf : Reader (List Line) := do
  let line := do
    let start ← peek
    let (_, role) ← statement g (evaluation g) []
    return Line.mk role (← extentFrom start)
  let _ ← symbol "\x7b"
  let lines ← many line
  let _ ← symbol "\x7d"
  return lines

/-- Adds the comments in front of a token to the notes before them. -/
def notesWith (notes : List Note) (comments : List Comment) : List Note :=
  comments.foldl (fun notes c =>
    match dropPrefix? "///".toList c.text with
    | some line => notes ++ [.doc (trim line)]
    | none => []) notes

/-- The declarations up to the end of what they stand in. -/
def itemsFrom (other : Reader Role) (closed : Token → Bool) :
    (fuel : Nat) → List Note → Reader (List Item)
  | 0, _ => failure
  | n + 1, notes => do
    let start ← peek
    if closed start then return []
    let notes := notesWith notes start.comments
    let (item, role) ← statement g other notes
    if role == .aside then
      itemsFrom other closed n (notes ++ [.attached (← extentFrom start).text])
    else return item :: (← itemsFrom other closed n [])

/-- The declarations up to a closing brace. -/
def itemsOf : Reader (List Item) := do
  let items ← itemsFrom g (invocation g) (·.isSymbol "\x7d") ((← size) + 1) []
  let _ ← symbol "\x7d"
  return items

/-! ## The grammar -/

/-- The readers that nest what `g` reads. -/
def deeper : Level :=
  ⟨typeOf g, patternOf g, singlePattern g, expressionOf g, standingOf g, blockOf g, itemsOf g⟩

/-- The grammar for what is nested at most `depth` deep. -/
def level : (depth : Nat) → Level
  | 0 => .none
  | n + 1 => deeper (level n)

/-- The declarations of a source; `none` if it is not well formed. -/
def items? (source : Text) : Option (List Item) := do
  let tokens ← tokens? source
  let g := level (2 * tokens.length + 2)
  let all := itemsFrom g (evaluation g) (·.kind == .ending) (tokens.length + 1) []
  let (items, _) ← all (.ofTokens tokens)
  return items

end Concord.Source.Braced
