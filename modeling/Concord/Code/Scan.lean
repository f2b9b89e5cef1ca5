/-
Which characters of a text are code and how deep in brackets they stand. A
literal runs from a quote to the same quote, a backslash inside it hides the next
character, and a single quote after an ampersand or a less-than sign is the mark of
a lifetime and opens nothing. Brackets have the depth of the text around them.
-/
import Concord.Text.Blank

namespace Concord.Code

/-- A character of a text: its bracket depth if it is code, nothing if it is part of a literal. -/
structure Cell where
  char : Char
  depth : Option Nat
deriving DecidableEq, Repr

/-- Where a scan stands between two characters. -/
structure Cursor where
  depth : Nat
  /-- The quote that ends the literal around this place. -/
  quote : Option Char
  /-- Whether the next character of the literal is hidden by a backslash. -/
  escaped : Bool
  prev : Option Char
deriving DecidableEq, Repr

/-- The place before the first character. -/
def Cursor.start : Cursor := ⟨0, none, false, none⟩

def isOpening (c : Char) : Bool := c == '(' || c == '[' || c == '{'

def isClosing (c : Char) : Bool := c == ')' || c == ']' || c == '}'

/-- Whether `c` opens a literal at this place. -/
def Cursor.opens (k : Cursor) (c : Char) : Bool :=
  c == '"' || c == '`' || (c == '\'' && k.prev != some '&' && k.prev != some '<')

/-- The place after `c`. -/
def Cursor.next (k : Cursor) (c : Char) : Cursor :=
  match k.quote with
  | some q =>
    if k.escaped then { k with escaped := false, prev := some c }
    else if c == '\\' then { k with escaped := true, prev := some c }
    else if c == q then { k with quote := none, prev := some c }
    else { k with prev := some c }
  | none =>
    if k.opens c then { k with quote := some c, prev := some c }
    else if isOpening c then { k with depth := k.depth + 1, prev := some c }
    else if isClosing c then { k with depth := k.depth - 1, prev := some c }
    else { k with prev := some c }

/-- How `c` is read at this place. -/
def Cursor.cell (k : Cursor) (c : Char) : Cell :=
  match k.quote with
  | some _ => ⟨c, none⟩
  | none =>
    if k.opens c then ⟨c, none⟩
    else if isClosing c then ⟨c, some (k.depth - 1)⟩
    else ⟨c, some k.depth⟩

/-- The cells of a text read from a given place. -/
def scanFrom (k : Cursor) : Text → List Cell
  | [] => []
  | c :: t => k.cell c :: scanFrom (k.next c) t

/-- The place after a whole text. -/
def Cursor.after (k : Cursor) (t : Text) : Cursor := t.foldl Cursor.next k

/-- The cells of a text. -/
def scan (t : Text) : List Cell := scanFrom .start t

@[simp] theorem length_scanFrom (k : Cursor) (t : Text) : (scanFrom k t).length = t.length := by
  induction t generalizing k with
  | nil => rfl
  | cons c t ih => simp [scanFrom, ih]

@[simp] theorem length_scan (t : Text) : (scan t).length = t.length := length_scanFrom _ t

theorem Cursor.char_cell (k : Cursor) (c : Char) : (k.cell c).char = c := by
  unfold Cursor.cell
  repeat' split
  all_goals rfl

/-- Scanning loses no character. -/
@[simp] theorem map_char_scanFrom (k : Cursor) (t : Text) : (scanFrom k t).map Cell.char = t := by
  induction t generalizing k with
  | nil => rfl
  | cons c t ih => simp [scanFrom, ih, Cursor.char_cell]

theorem scanFrom_append (k : Cursor) (a b : Text) :
    scanFrom k (a ++ b) = scanFrom k a ++ scanFrom (k.after a) b := by
  induction a generalizing k with
  | nil => rfl
  | cons c a ih => simp [scanFrom, ih, Cursor.after]

/-- A character that is code outside all brackets. -/
def Cell.isTop (c : Cell) : Bool := c.depth == some 0

end Concord.Code
