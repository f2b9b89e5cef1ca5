/-
Blank characters and trimming. A character is blank when it has the Unicode
property White_Space; a text is trimmed by dropping blanks at its ends and
nowhere else.
-/
namespace Concord

/-- A text under analysis, as its characters. -/
abbrev Text := List Char

namespace Text

/-- The characters with the property White_Space. -/
def isBlank (c : Char) : Bool :=
  let n := c.toNat
  (9 ≤ n && n ≤ 13) || n == 32 || n == 0x85 || n == 0xA0 || n == 0x1680 ||
    (0x2000 ≤ n && n ≤ 0x200A) || n == 0x2028 || n == 0x2029 || n == 0x202F ||
    n == 0x205F || n == 0x3000

def trimStart (t : Text) : Text := t.dropWhile isBlank

/-- Drops the longest end of `t` on which `p` holds. -/
def dropEndWhile (p : Char → Bool) : Text → Text
  | [] => []
  | c :: t =>
    match dropEndWhile p t with
    | [] => if p c then [] else [c]
    | u => c :: u

def trimEnd (t : Text) : Text := dropEndWhile isBlank t

def trim (t : Text) : Text := trimEnd (trimStart t)

/-- Whether nothing but blanks stands in `t`. -/
def allBlank (t : Text) : Bool := t.all isBlank

/-- Reads and writes a `String` as a text on both sides of `f`. -/
def onText (f : Text → Text) (s : String) : String := String.ofList (f s.toList)

/-- A `String` without the blanks at its ends. -/
def trimmed (s : String) : String := onText trim s

end Text

end Concord
