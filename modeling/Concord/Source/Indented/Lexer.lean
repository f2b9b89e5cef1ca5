/-
Tokens of a language whose blocks are marked by indentation. A token knows the
indentation of its line if it is the first on a line outside all brackets, and a
comment if it has a line to itself.

A tab counts for eight columns, a carriage return or a form feed begins the
counting anew, and a backslash at the end of a line joins it with the next one.
-/
import Concord.Source.Token

namespace Concord.Source.Indented

open Text

/-! ## Literals -/

/-- How a literal is written. -/
structure Quoting where
  quote : Char
  /-- Whether three quotes open and close it. -/
  triple : Bool
  /-- Whether a backslash stands for itself. -/
  raw : Bool
  /-- Whether it has holes in braces. -/
  formatted : Bool

/-- The letters that may stand in front of a literal. -/
def isFlag (c : Char) : Bool := "fFrRbBuU".toList.contains c

/-- The opening quotes of a literal after its flags, and what follows them. -/
def openQuotes? (flags : Text) : Text → Option (Quoting × Text)
  | [] => none
  | c :: t =>
    if c == '"' || c == '\'' then
      let raw := flags.any fun f => f == 'r' || f == 'R'
      let formatted := flags.any fun f => f == 'f' || f == 'F'
      match dropPrefix? [c, c] t with
      | some u => some (⟨c, true, raw, formatted⟩, u)
      | none => some (⟨c, false, raw, formatted⟩, t)
    else none

/-- What follows a backslash and the character that it hides, if it hides one. -/
def dropEscape : Text → Text
  | 'N' :: '{' :: t =>
    match t.dropWhile (· != '}') with
    | '}' :: rest => rest
    | _ => 'N' :: '{' :: t
  | '\r' :: '\n' :: t => t
  | c :: t => if c == '\n' || c == '\'' || c == '"' || c == '\\' then t else c :: t
  | [] => []

/-- What follows a backslash of a raw literal and the character that it hides. -/
def dropRawEscape (quote : Char) (t : Text) : Text :=
  let t := match t with
    | c :: rest => if c == quote || c == '\\' then rest else t
    | [] => []
  match t with
  | '\r' :: '\n' :: rest => rest
  | '\n' :: rest => rest
  | _ => t

mutual

/-- What follows a literal whose opening quotes are read. A literal in single quotes may hold a
line break only where a piece of it begins, that is, when `atStart` holds. -/
def afterLiteral? (q : Quoting) (atStart : Bool) : (fuel : Nat) → Text → Option Text
  | 0, _ => none
  | _ + 1, [] => none
  | n + 1, c :: t =>
    if q.formatted && c == '{' then
      match t with
      | '{' :: rest => afterLiteral? q true n rest
      | _ => (afterHole? 0 true [] n t).bind (afterLiteral? q true n)
    else if q.formatted && c == '}' then
      match t with
      | '}' :: rest => afterLiteral? q true n rest
      | _ => none
    else if c == '\\' then
      if q.raw then afterLiteral? q atStart n (dropRawEscape q.quote t)
      else afterLiteral? q true n (dropEscape t)
    else if c == q.quote then
      if q.triple then
        match dropPrefix? [c, c] t with
        | some rest => some rest
        | none => afterLiteral? q false n t
      else some t
    else if c == '\n' && !atStart && !q.triple then none
    else afterLiteral? q false n t

/-- What follows a hole of a literal. `flags` are the letters directly in front. -/
def afterHole? (depth : Nat) (blank : Bool) (flags : Text) : (fuel : Nat) → Text → Option Text
  | 0, _ => none
  | _ + 1, [] => none
  | n + 1, c :: t =>
    match openQuotes? flags (c :: t) with
    | some (q, rest) => (afterLiteral? q true n rest).bind (afterHole? depth false [] n)
    | none =>
      if depth == 0 && c == '}' then if blank then none else some t
      else if depth == 0 && c == ':' then if blank then none else afterWidth? n t
      else if c == '(' || c == '[' || c == '{' then afterHole? (depth + 1) false [] n t
      else if c == ')' || c == ']' || c == '}' then
        if depth == 0 then none else afterHole? (depth - 1) false [] n t
      else
        let flags := if isFlag c then c :: flags else []
        afterHole? depth (blank && isBlank c) flags n t

/-- What follows the part of a hole that says how its value is written. -/
def afterWidth? : (fuel : Nat) → Text → Option Text
  | 0, _ => none
  | _ + 1, [] => none
  | n + 1, c :: t =>
    if c == '}' then some t
    else if c == '{' then (afterHole? 0 true [] n t).bind (afterWidth? n)
    else if c == '\n' then none
    else afterWidth? n t

end

/-- What follows a literal with the given flags at the start of a text. -/
def afterQuoted? (flags t : Text) : Option Text :=
  (openQuotes? flags t).bind fun (q, rest) => afterLiteral? q true (rest.length + 1) rest

/-! ## Other tokens -/

def isHexDigit (c : Char) : Bool :=
  isAsciiDigit c || ('a' ≤ c && c ≤ 'f') || ('A' ≤ c && c ≤ 'F') || c == '_'

/-- The digits at the start of a text and what follows them. -/
def digits (t : Text) : Text × Text := t.span fun c => isAsciiDigit c || c == '_'

/-- What follows the exponent at the start of a text, if there is one. -/
def dropExponent (t : Text) : Text :=
  match t with
  | e :: rest =>
    if e == 'e' || e == 'E' then
      let unsigned := match rest with
        | s :: u => if s == '+' || s == '-' then u else rest
        | [] => []
      match digits unsigned with
      | ([], _) => t
      | (_, u) => u
    else t
  | [] => []

/-- What follows the number at the start of a text. -/
def afterNumber (t : Text) : Text :=
  match t with
  | '0' :: x :: rest =>
    if x == 'x' || x == 'X' || x == 'o' || x == 'O' || x == 'b' || x == 'B' then
      dropSuffixLetter (rest.dropWhile isHexDigit)
    else decimal t
  | _ => decimal t
where
  decimal (t : Text) : Text :=
    let t := (digits t).2
    let t := match t with
      | '.' :: rest => (digits rest).2
      | _ => t
    dropSuffixLetter (dropExponent t)
  dropSuffixLetter (t : Text) : Text :=
    match t with
    | c :: rest => if c == 'j' || c == 'J' || c == 'l' || c == 'L' then rest else t
    | [] => []

/-- The symbols, longer ones first. -/
def symbols : List Text :=
  ["**=", "//=", ">>=", "<<=", "...", "->", ":=", "==", "!=", "<=", ">=", "<>", "**", "//", ">>",
    "<<", "+=", "-=", "*=", "/=", "%=", "&=", "|=", "^=", "@=", "+", "-", "*", "/", "%", "@", "&",
    "|", "^", "~", "<", ">", "=", ".", ",", ":", ";", "(", ")", "[", "]", "\x7b", "\x7d"].map (·.toList)

/-- The symbol at the start of a text. -/
def symbol? (t : Text) : Option Text := symbols.find? (·.isPrefixOf t)

/-- Blanks that may stand between tokens and that count for nothing. -/
def isIdle (c : Char) : Bool :=
  c == '\x0b' || c.toNat == 0x200B || c.toNat == 0x2060 || c.toNat == 0xFEFF

/-! ## The token sequence -/

/-- What was seen since the last token. -/
structure Gap where
  /-- Whether a line ended. -/
  broken : Bool
  indent : Nat
  /-- The comments, the last one first. -/
  comments : List Comment

/-- The kind of the token at the start of a text, and what follows it. -/
def token? (t : Text) : Option (TokenKind × Text) :=
  match t with
  | [] => none
  | c :: rest =>
    if beginsWord c then
      let (w, after) := t.span continuesWord
      if w.all isFlag then
        match afterQuoted? w after with
        | some u => some (.quoted, u)
        | none => if (openQuotes? w after).isSome then none else some (.word, after)
      else some (.word, after)
    else if c == '"' || c == '\'' then (afterQuoted? [] t).map fun u => (.quoted, u)
    else if isAsciiDigit c || (c == '.' && rest.head?.any isAsciiDigit) then
      some (.number, afterNumber t)
    else (symbol? t).map fun s => (.symbol, t.drop s.length)

/-- A word is not blank. -/
theorem named_of_token? {t after : Text} (h : token? t = some (.word, after)) :
    allBlank (t.take (t.length - after.length)) = false := by
  cases t with
  | nil => cases h
  | cons c rest =>
    simp only [token?] at h
    split at h
    · rename_i hbegins
      have hlength := length_span_le hbegins rest
      split at h
      · split at h
        · cases h
        · split at h
          · cases h
          · cases h
            exact allBlank_take_of_beginsWord hbegins hlength
      · cases h
        exact allBlank_take_of_beginsWord hbegins hlength
    · split at h
      · obtain ⟨u, -, hu⟩ := Option.map_eq_some_iff.1 h
        cases hu
      · split at h
        · cases h
        · obtain ⟨s, -, hs⟩ := Option.map_eq_some_iff.1 h
          cases hs

/-- The bracket depth behind a token. -/
def depthAfter (depth : Nat) (t : Text) : Nat :=
  if t == ['('] || t == ['['] || t == ['{'] then depth + 1
  else if t == [')'] || t == [']'] || t == ['}'] then depth - 1
  else depth

def tokensFrom (depth : Nat) (gap : Gap) (place : Place) : (fuel : Nat) → Text → Option (List Token)
  | 0, _ => none
  | n + 1, t =>
    let skip := fun (gap : Gap) (blanks : Text) (rest : Text) =>
      tokensFrom depth gap (place.after blanks) n rest
    let fresh := if depth == 0 && gap.broken then some gap.indent else none
    let comments := gap.comments.reverse
    match t with
    | [] =>
      some [{
        kind := .ending, text := [], named := nofun, place, tail := [], fresh := some 0, comments }]
    | '\n' :: rest => skip { gap with broken := true, indent := 0 } ['\n'] rest
    | ' ' :: rest => skip { gap with indent := gap.indent + 1 } [' '] rest
    | '\t' :: rest => skip { gap with indent := gap.indent + 8 } ['\t'] rest
    | '\r' :: rest => skip { gap with indent := 0 } ['\r'] rest
    | '\x0c' :: rest => skip { gap with indent := 0 } ['\x0c'] rest
    | '\\' :: [] => skip gap ['\\'] []
    | '\\' :: '\n' :: rest => skip gap ['\\', '\n'] rest
    | '\\' :: '\r' :: '\n' :: rest => skip gap ['\\', '\r', '\n'] rest
    | '#' :: rest =>
      let body := rest.takeWhile (· != '\n')
      let comment : Comment :=
        { text := '#' :: body, start := place.offset, stop := place.offset + body.length + 1,
          own := if gap.broken then some gap.indent else none }
      skip { gap with comments := comment :: gap.comments } comment.text (rest.drop body.length)
    | c :: rest =>
      if isIdle c then skip gap [c] rest
      else match h : token? (c :: rest) with
        | none => none
        | some (kind, after) => do
          let text := (c :: rest).take ((c :: rest).length - after.length)
          let more ← tokensFrom (depthAfter depth text) ⟨false, 0, []⟩ (place.after text) n after
          return {
            kind, text, named := fun hkind => named_of_token? (hkind ▸ h), place, tail := c :: rest, fresh,
            comments } :: more

/-- The tokens of a source; `none` if some part of it is no token. -/
def tokens? (source : Text) : Option (List Token) :=
  tokensFrom 0 ⟨true, 0, []⟩ .first (source.length + 1) source

end Concord.Source.Indented
