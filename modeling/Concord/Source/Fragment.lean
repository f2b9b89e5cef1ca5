/-
Pieces of source text in the form in which they are kept: literals without their
quotes, documentation and statements without the indentation of the place they
stood at, and the dotted path that the name of a file stands for.

Indentation is cut off by bytes. A cut inside a character has no result.
-/
import Concord.Text.Lines

namespace Concord.Source

open Text

/-- Where a character stands: characters and lines before it, and bytes before it in its line. -/
structure Place where
  offset : Nat
  line : Nat
  column : Nat
deriving DecidableEq, Repr, Inhabited

namespace Place

def first : Place := ⟨0, 0, 0⟩

/-- The place behind a character. -/
def next (p : Place) (c : Char) : Place :=
  if c == '\n' then ⟨p.offset + 1, p.line + 1, 0⟩
  else ⟨p.offset + 1, p.line, p.column + c.utf8Size⟩

/-- The place behind a text. -/
def after (p : Place) (t : Text) : Place := t.foldl next p

end Place

/-- What stands behind a byte offset; `none` inside a character or past the end. -/
def dropBytes? (n : Nat) (line : Text) : Option Text := (cutAtByte? n line).map (·.2)

/-- The number of blanks at the start of a line whose byte offset lies below `limit`. -/
def blanksBelow (limit : Nat) : (offset : Nat) → Text → Nat
  | _, [] => 0
  | offset, c :: line =>
    if offset < limit && isBlank c then blanksBelow limit (offset + c.utf8Size) line + 1 else 0

/-- A statement without the indentation of its first line, given in bytes. As many bytes are cut
from each further line as it has blanks inside that indentation. -/
def fragment? (indent : Nat) (t : Text) : Option Text :=
  match lines t with
  | [] => some []
  | first :: rest => do
    let rest ← rest.mapM fun line => (dropBytes? (blanksBelow indent 0 line) line).map trimEnd
    return join ['\n'] (trimEnd first :: rest)

/-- What stands between two occurrences of `quote` at the ends of a text. -/
def between? (quote t : Text) : Option Text :=
  if 2 * quote.length ≤ t.length && startsWith t quote && endsWith t quote then
    some ((t.drop quote.length).take (t.length - 2 * quote.length))
  else none

/-- A literal without its quotes; any other text is trimmed. -/
def unquote (t : Text) : Text :=
  let t := trim t
  ([['"', '"', '"'], ['\'', '\'', '\''], ['"'], ['\'']].findSome? (between? · t)).getD t

/-- The bytes of the blanks that a line begins with. -/
def indentBytes (line : Text) : Nat := byteLength (line.takeWhile isBlank)

/-- Documentation without its quotes and without the indentation that its lines from the second on
share. -/
def docText? (t : Text) : Option Text :=
  match lines (unquote t) with
  | [] => some []
  | first :: rest => do
    let shared := ((rest.filter fun l => !allBlank l).map indentBytes).min?.getD 0
    let rest ← rest.mapM fun line =>
      if shared ≤ byteLength line then (dropBytes? shared line).map trimEnd else some (trim line)
    return trim (join ['\n'] (trim first :: rest))

/-- Drops every leading `./`. -/
def dropHere : Text → Text
  | '.' :: '/' :: t => dropHere t
  | t => t

/-- The parts of the dotted path that a file stands for: its directories and its name without the
extension. Names that stand for their directory are left out. -/
def spaceParts (origin : String) : List Text :=
  let t := dropHere (origin.toList.map fun c => if c == '\\' then '/' else c)
  let t := (dropPrefix? "src/".toList t).getD t
  let t := match cutLast? ['.'] t with
    | some (stem, extension) => if extension.contains '/' then t else stem
    | none => t
  (splitAt '/' t).filter fun part =>
    !part.isEmpty && part != "__init__".toList && part != "mod".toList

end Concord.Source
