/-
Literals of sources as values.
-/
import Concord.Code.Split
import Concord.Json.Value
import Concord.Number.Read

namespace Concord.Assertion

open Text Code Number

/-- Letters that may stand before a string literal. -/
def literalMarks : List Char := ['r', 'b', 'f', 'u', 'R', 'B', 'F', 'U']

/-- The text of a string literal, if `t` is a single one: no code between its ends. -/
def stringLiteral? (t : Text) : Option Text := do
  let body := (trim t).dropWhile literalMarks.contains
  let quote ← body.head?
  if !(quote == '"' || quote == '\'' || quote == '`') then none
  if body.length < 2 || body.getLast? != some quote then none
  if (inside (scan body)).any fun cell => cell.depth.isSome then none
  return inside body

/-- Calls that only make an owned string of a literal. -/
def owningEnds : List Text := [".to_string()".toList, ".to_owned()".toList, ".into()".toList]

/-- A string literal as a value. -/
def stringDatum? (t : Text) : Option Datum :=
  (stringLiteral? t).map fun s => .str (String.ofList s)

/-- A number literal as a value; underscores between digits do not count. -/
def numberDatum? (t : Text) : Option Datum :=
  let digits := t.filter (· != '_')
  match int64? digits with
  | some n => some (.int n)
  | none =>
    match digits with
    | c :: _ =>
      if isAsciiDigit c || c == '-' || c == '.' then (finiteFloat? digits).map Datum.float
      else none
    | [] => none

/-- The words for values. -/
def wordDatum? (t : Text) : Option Datum :=
  match String.ofList t with
  | "None" | "null" | "undefined" | "nil" => some .null
  | "True" | "true" => some (.bool true)
  | "False" | "false" => some (.bool false)
  | _ => none

/-- The value of a literal, if `text` is one. -/
def literal? (text : Text) : Option Datum :=
  let t := trim text
  match (wordDatum? t).or (numberDatum? t) with
  | some d => some d
  | none =>
    match owningEnds.findSome? fun e => dropSuffix? e t with
    | some inner => stringDatum? inner
    | none =>
      match (dropPrefix? "String::from(".toList t).bind (dropSuffix? [')']) with
      | some inner => stringDatum? inner
      | none => stringDatum? t

/-- The value of a literal, or else the text itself as a string. -/
def valueOf (t : Text) : Datum := (literal? t).getD (.str (String.ofList (trim t)))

/-- Whether a text is a literal for no value. -/
def isNull (t : Text) : Bool :=
  match literal? t with
  | some d => d.json == .null
  | none => false

/-- The text of a string literal, or else the text itself. -/
def unquoted (t : Text) : String :=
  match literal? t with
  | some ⟨.str s, _⟩ => s
  | _ => String.ofList (trim t)

end Concord.Assertion
