/-
JSON values to text, on one line without blanks or indented by two spaces. Only
quotes, backslashes and control characters are escaped.
-/
import Concord.Json.Value
import Concord.Number.Shortest
import Concord.Text.Blank

namespace Concord.Json

open Text

/-- A digit of the escape of a control character. -/
def hexChar (n : Nat) : Char := if n < 10 then Char.ofNat (48 + n) else Char.ofNat (87 + n)

/-- How a character stands in a string. -/
def escapeChar (c : Char) : Text :=
  if c == '"' then ['\\', '"']
  else if c == '\\' then ['\\', '\\']
  else if c.toNat < 32 then
    if c == '\n' then ['\\', 'n']
    else if c == '\r' then ['\\', 'r']
    else if c == '\t' then ['\\', 't']
    else if c.toNat == 8 then ['\\', 'b']
    else if c.toNat == 12 then ['\\', 'f']
    else ['\\', 'u', '0', '0', hexChar (c.toNat / 16), hexChar (c.toNat % 16)]
  else [c]

/-- A string in quotes. -/
def quoted (s : String) : Text := '"' :: s.toList.flatMap escapeChar ++ ['"']

/-- The text of a whole number. -/
def intText (n : Int) : Text :=
  if n < 0 then '-' :: Nat.toDigits 10 n.natAbs else Nat.toDigits 10 n.natAbs

/-- The text of a value that is no list and no object. -/
def scalar : Json → Text
  | .null => "null".toList
  | .bool true => "true".toList
  | .bool false => "false".toList
  | .int n => intText n
  | .float x => ((Number.shortestText? x).getD "null").toList
  | .str s => quoted s
  | .arr _ => []
  | .obj _ => []

mutual

/-- A value without any blanks, put before `rest`. -/
def compactOnto : Json → Text → Text
  | .arr items, rest => '[' :: compactItems true items (']' :: rest)
  | .obj members, rest => '{' :: compactMembers true members ('}' :: rest)
  | j, rest => scalar j ++ rest

def compactItems (first : Bool) : List Json → Text → Text
  | [], rest => rest
  | j :: items, rest =>
    let tail := compactOnto j (compactItems false items rest)
    if first then tail else ',' :: tail

def compactMembers (first : Bool) : List (String × Json) → Text → Text
  | [], rest => rest
  | (k, j) :: members, rest =>
    let tail := quoted k ++ ':' :: compactOnto j (compactMembers false members rest)
    if first then tail else ',' :: tail

end

/-- A value without any blanks. -/
def compact (j : Json) : String := String.ofList (compactOnto j [])

/-- A new line at an indentation, before `rest`. -/
def newline (indent : Nat) (rest : Text) : Text := '\n' :: (List.replicate indent ' ' ++ rest)

mutual

/-- A value over several lines, put before `rest`; `indent` is that of its first line. -/
def prettyOnto (indent : Nat) : Json → Text → Text
  | .arr [], rest => '[' :: ']' :: rest
  | .arr (j :: items), rest =>
    '[' :: prettyItems (indent + 2) true (j :: items) (newline indent (']' :: rest))
  | .obj [], rest => '{' :: '}' :: rest
  | .obj (m :: members), rest =>
    '{' :: prettyMembers (indent + 2) true (m :: members) (newline indent ('}' :: rest))
  | j, rest => scalar j ++ rest

def prettyItems (indent : Nat) (first : Bool) : List Json → Text → Text
  | [], rest => rest
  | j :: items, rest =>
    let tail := newline indent (prettyOnto indent j (prettyItems indent false items rest))
    if first then tail else ',' :: tail

def prettyMembers (indent : Nat) (first : Bool) : List (String × Json) → Text → Text
  | [], rest => rest
  | (k, j) :: members, rest =>
    let tail := newline indent
      (quoted k ++ ':' :: ' ' :: prettyOnto indent j (prettyMembers indent false members rest))
    if first then tail else ',' :: tail

end

/-- A value over several lines, indented by two spaces. -/
def pretty (j : Json) : String := String.ofList (prettyOnto 0 j [])

end Concord.Json
