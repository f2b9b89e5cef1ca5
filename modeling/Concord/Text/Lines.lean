/-
Lines and indentation. A line ends before a line feed, one carriage return in
front of it belongs to the line end, and the text after the last line feed is a
line unless it is empty.
-/
import Concord.Text.Cut

namespace Concord.Text

/-- A line without the carriage return that ends it. -/
def dropReturn (line : Text) : Text := (dropSuffix? ['\r'] line).getD line

/-- The lines of a text. -/
def lines (t : Text) : List Text :=
  match (splitAt '\n' t).reverse with
  | [] => []
  | last :: before =>
    let whole := before.reverse.map dropReturn
    if last.isEmpty then whole else whole ++ [last]

/-- The number of blanks that a line begins with. -/
def indentOf (line : Text) : Nat := (line.takeWhile isBlank).length

/-- A line without its first `n` leading blanks. -/
def outdentLine : (n : Nat) → Text → Text
  | 0, line => line
  | _ + 1, [] => []
  | n + 1, c :: line => if isBlank c then outdentLine n line else c :: line

/-- The lines without the indentation that all but the blank ones share. -/
def outdent (t : Text) : Text :=
  let ls := lines t
  let indent := ((ls.filter fun l => !allBlank l).map indentOf).min?.getD 0
  stripBoth (· == '\n') (join ['\n'] (ls.map (outdentLine indent)))

end Concord.Text
