/-
Tokens of a language whose blocks stand in braces. Angle brackets are always
tokens of their own, so that nested type arguments can be closed one by one.
-/
import Concord.Source.Token

namespace Concord.Source.Braced

open Text

/-! ## Literals -/

/-- What follows a literal in double quotes, behind the opening one. -/
def afterString? : Text → Option Text
  | [] => none
  | '"' :: t => some t
  | '\\' :: _ :: t => afterString? t
  | _ :: t => afterString? t

/-- What follows a raw literal that is closed by a quote and the given marks. -/
def afterRaw? (marks : Text) : Text → Option Text
  | [] => none
  | '"' :: t =>
    match dropPrefix? marks t with
    | some u => some u
    | none => afterRaw? marks t
  | _ :: t => afterRaw? marks t

/-- What follows a raw literal whose marks and quote come next. -/
def afterRawOpening? (t : Text) : Option Text :=
  let marks := t.takeWhile (· == '#')
  match t.drop marks.length with
  | '"' :: rest => afterRaw? marks rest
  | _ => none

/-- What follows the part of an escaped character behind the backslash and before its end. -/
def afterEscape? : Text → Option Text
  | _ :: t =>
    match t.dropWhile (· != '\'') with
    | '\'' :: rest => some rest
    | _ => none
  | [] => none

/-- What follows a single quote: the rest of a character, or the name of a lifetime. -/
def afterApostrophe? (t : Text) : Option (TokenKind × Text) :=
  match t with
  | '\\' :: rest => (afterEscape? rest).map fun u => (.quoted, u)
  | c :: '\'' :: rest => if c == '\'' then none else some (.quoted, rest)
  | c :: rest =>
    if beginsWord c then some (.lifetime, rest.dropWhile continuesWord) else none
  | [] => none

/-- Whether a raw literal begins here. -/
def isRawOpening (t : Text) : Bool := (t.dropWhile (· == '#')).head? == some '"'

/-- What follows a literal that has letters in front, or a name. -/
def afterWord? (t : Text) : Option (TokenKind × Text) :=
  let (w, rest) := t.span continuesWord
  let raw := w == ['r'] || w == ['b', 'r'] || w == ['c', 'r']
  let plain := w == ['b'] || w == ['c']
  match rest with
  | '"' :: after =>
    if raw then (afterRawOpening? rest).map fun u => (.quoted, u)
    else if plain then (afterString? after).map fun u => (.quoted, u)
    else some (.word, rest)
  | '#' :: after =>
    if raw && isRawOpening rest then (afterRawOpening? rest).map fun u => (.quoted, u)
    else if w == ['r'] && after.head?.any beginsWord then some (.word, after.dropWhile continuesWord)
    else some (.word, rest)
  | '\'' :: after =>
    if w == ['b'] then
      match afterApostrophe? after with
      | some (.quoted, u) => some (.quoted, u)
      | _ => some (.word, rest)
    else some (.word, rest)
  | _ => some (.word, rest)

/-- What follows a number. Behind a dot a number is an index and has no fraction. -/
def afterNumber (afterDot : Bool) (t : Text) : Text :=
  let rest := exponent t (t.dropWhile isWord)
  if afterDot then rest
  else match rest with
    | '.' :: d :: u =>
      if isAsciiDigit d then exponent (d :: u) ((d :: u).dropWhile isWord)
      else if d == '.' || beginsWord d then rest
      else d :: u
    | ['.'] => []
    | _ => rest
where
  /-- Takes a sign and the digits behind it if the digits in front end in the mark of an
  exponent. -/
  exponent (from_ rest : Text) : Text :=
    let run := from_.take (from_.length - rest.length)
    let isHex := startsWith run ['0', 'x']
    match rest with
    | s :: d :: u =>
      if !isHex && (s == '+' || s == '-') && isAsciiDigit d &&
          (run.getLast? == some 'e' || run.getLast? == some 'E') then
        (d :: u).dropWhile isWord
      else rest
    | _ => rest

/-- What follows a comment that may hold others, behind the opening marks. -/
def afterComment? : (depth : Nat) → Text → Option Text
  | _, [] => none
  | 0, t => some t
  | d + 1, '*' :: '/' :: t => if d == 0 then some t else afterComment? d t
  | d + 1, '/' :: '*' :: t => afterComment? (d + 2) t
  | d + 1, _ :: t => afterComment? (d + 1) t

/-! ## The token sequence -/

/-- The symbols, longer ones first. -/
def symbols : List Text :=
  ["..=", "...", "::", "->", "=>", "==", "!=", "<=", "&&", "||", "+=", "-=", "*=", "/=", "%=",
    "^=", "&=", "|=", "..", "+", "-", "*", "/", "%", "^", "&", "|", "!", "=", "<", ">", ".", ",",
    ";", ":", "?", "@", "#", "$", "~", "(", ")", "[", "]", "\x7b", "\x7d"].map (·.toList)

/-- Whether blanks between tokens may hold this character. -/
def isGap (c : Char) : Bool := ('\t' ≤ c && c ≤ '\r') || c == ' '

/-- The kind of the token at the start of a text, and what follows it. -/
def token? (afterDot : Bool) (t : Text) : Option (TokenKind × Text) :=
  match t with
  | [] => none
  | c :: rest =>
    if beginsWord c then afterWord? t
    else if isAsciiDigit c then some (.number, afterNumber afterDot t)
    else if c == '"' then (afterString? rest).map fun u => (.quoted, u)
    else if c == '\'' then afterApostrophe? rest
    else (symbols.find? (·.isPrefixOf t)).map fun s => (.symbol, t.drop s.length)

/-- What follows a word is no longer than what follows its first characters. -/
theorem length_le_of_afterWord? {t after : Text} (h : afterWord? t = some (.word, after)) :
    after.length ≤ (t.span continuesWord).2.length := by
  rw [afterWord?.eq_def] at h
  generalize t.span continuesWord = cut at h ⊢
  obtain ⟨w, rest⟩ := cut
  dsimp only at h ⊢
  split at h
  · split at h
    · obtain ⟨u, -, hu⟩ := Option.map_eq_some_iff.1 h
      cases hu
    · split at h
      · obtain ⟨u, -, hu⟩ := Option.map_eq_some_iff.1 h
        cases hu
      · cases h
        exact Nat.le_refl _
  · split at h
    · obtain ⟨u, -, hu⟩ := Option.map_eq_some_iff.1 h
      cases hu
    · split at h
      · cases h
        exact Nat.le_succ_of_le (List.dropWhile_sublist _).length_le
      · cases h
        exact Nat.le_refl _
  · split at h
    · split at h
      · cases h
      · cases h
        exact Nat.le_refl _
    · cases h
      exact Nat.le_refl _
  · cases h
    exact Nat.le_refl _

/-- A single quote begins no word. -/
theorem afterApostrophe?_ne_word (t after : Text) : afterApostrophe? t ≠ some (.word, after) := by
  intro h
  rw [afterApostrophe?.eq_def] at h
  split at h
  · obtain ⟨u, -, hu⟩ := Option.map_eq_some_iff.1 h
    cases hu
  · split at h <;> cases h
  · split at h <;> cases h
  · cases h

/-- A word is not blank. -/
theorem named_of_token? {afterDot : Bool} {t after : Text} (h : token? afterDot t = some (.word, after)) :
    allBlank (t.take (t.length - after.length)) = false := by
  cases t with
  | nil => cases h
  | cons c rest =>
    simp only [token?] at h
    split at h
    · rename_i hbegins
      refine allBlank_take_of_beginsWord hbegins ?_
      exact Nat.le_trans (length_le_of_afterWord? h) (length_span_le hbegins rest)
    · split at h
      · cases h
      · split at h
        · obtain ⟨u, -, hu⟩ := Option.map_eq_some_iff.1 h
          cases hu
        · split at h
          · exact absurd h (afterApostrophe?_ne_word rest after)
          · obtain ⟨s, -, hs⟩ := Option.map_eq_some_iff.1 h
            cases hs

def tokensFrom (comments : List Comment) (afterDot : Bool) (place : Place) :
    (fuel : Nat) → Text → Option (List Token)
  | 0, _ => none
  | n + 1, t =>
    let note := fun (text rest : Text) =>
      let c : Comment := { text, start := place.offset, stop := place.offset + text.length }
      tokensFrom (c :: comments) afterDot (place.after text) n rest
    match t with
    | [] =>
      some [{
        kind := .ending, text := [], named := nofun, place, tail := [],
        comments := comments.reverse }]
    | '/' :: '/' :: rest =>
      let body := rest.takeWhile (· != '\n')
      note ('/' :: '/' :: body) (rest.drop body.length)
    | '/' :: '*' :: rest =>
      match afterComment? 1 rest with
      | some after => note (t.take (t.length - after.length)) after
      | none => none
    | c :: rest =>
      if isGap c then tokensFrom comments afterDot (place.next c) n rest
      else match h : token? afterDot (c :: rest) with
        | none => none
        | some (kind, after) => do
          let text := (c :: rest).take ((c :: rest).length - after.length)
          let more ← tokensFrom [] (text == ['.']) (place.after text) n after
          return {
            kind, text, named := fun hkind => named_of_token? (hkind ▸ h), place, tail := c :: rest,
            comments := comments.reverse } :: more

/-- The first line of a source if it names a program to run the source with. -/
def firstLine (source : Text) : Text :=
  match source with
  | '#' :: '!' :: c :: rest =>
    if c == '[' then [] else '#' :: '!' :: c :: rest.takeWhile (· != '\n')
  | _ => []

/-- The tokens of a source; `none` if some part of it is no token. -/
def tokens? (source : Text) : Option (List Token) :=
  let line := firstLine source
  tokensFrom [] false (Place.first.after line) (source.length + 1) (source.drop line.length)

end Concord.Source.Braced
