/-
Finding and splitting at the top level of a text: outside literals and outside
brackets. Positions count characters.
-/
import Concord.Code.Scan
import Concord.Text.Cut
import Concord.Text.Letter

namespace Concord.Code

open Text

/-- The first top-level place of a text and its cells where `ok` holds of the text from there. -/
def firstTop? (ok : Text → Bool) : Text → List Cell → Option Nat
  | c :: t, cell :: cells =>
    if cell.isTop && ok (c :: t) then some 0 else (firstTop? ok t cells).map (· + 1)
  | _, _ => none

/-- The first top-level place at or after `start` where `ok` holds of the text from there. -/
def findTopWhere? (ok : Text → Bool) (t : Text) (start : Nat) : Option Nat :=
  (firstTop? ok (t.drop start) ((scan t).drop start)).map (· + start)

/-- The first top-level occurrence of `p`. -/
def findTop? (p t : Text) : Option Nat := findTopWhere? (startsWith · p) t 0

/-- The place of the bracket that closes the one opened at `o`. -/
def closeOf? (t : Text) (o : Nat) : Option Nat :=
  match (scan t)[o]? with
  | some ⟨_, some d⟩ =>
    (((scan t).drop (o + 1)).findIdx? fun c => c.depth == some d && isClosing c.char).map
      (· + (o + 1))
  | _ => none

/-- The pieces of a scanned text between its top-level separators. -/
def piecesAt (sep : Char) : List Cell → List Text
  | [] => [[]]
  | c :: cells =>
    if c.isTop && c.char == sep then [] :: piecesAt sep cells
    else match piecesAt sep cells with
      | [] => [[c.char]]
      | piece :: rest => (c.char :: piece) :: rest

/-- The trimmed non-empty pieces between the top-level separators. -/
def splitTop (sep : Char) (t : Text) : List Text :=
  ((piecesAt sep (scan t)).map trim).filter fun p => !p.isEmpty

/-- What stands between the first and the last item. -/
def inside {α : Type} (t : List α) : List α := (t.drop 1).dropLast

/-- Whether all of `t` is one group in parentheses. -/
def isParenthesised (t : Text) : Bool :=
  t.head? == some '(' && closeOf? t 0 == some (t.length - 1)

/-- The trimmed text without one pair of parentheses around it. -/
def stripParens (t : Text) : Text :=
  let u := trim t
  if isParenthesised u then trim (inside u) else u

/-- The path of names that a text begins with. -/
def leadingPath (t : Text) : Text :=
  t.takeWhile fun c => isAlphanumeric c || c == '_' || c == '.' || c == ':' || c == '!'

/-- Whether a text reads as a call: a path of names, an opening parenthesis, and a closing one at
the very end. -/
def looksLikeCall (t : Text) : Bool :=
  let u := trim t
  let path := leadingPath u
  (match path with
    | [] => false
    | c :: _ => isAlphabetic c || c == '_') &&
    (trimStart (u.drop path.length)).head? == some '(' && u.getLast? == some ')'

end Concord.Code
